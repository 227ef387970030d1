import InertialSense.Comm.Progress
import InertialSense.Foundation.Loop

/-! The loops of the parser as the source writes them, without a bound on their passes: each
call of `is_comm_parse_timeout` returns, and so does the loop of `parse_messages`. -/

namespace InertialSense.Comm

open Foundation

namespace Instance

/-- One pass of the `while` loop in `is_comm_parse_timeout`: it goes on, or it returns. -/
def SearchPass (c : Instance) (answer : Instance ⊕ (Instance × ProtocolType)) : Prop :=
  answer =
    if c.scan < c.tail then if c.turn.2 = .none then .inl c.turn.1 else .inr c.turn
    else .inr (c, .none)

/-- `is_comm_parse_timeout` returns this. -/
def ParseReturns (c : Instance) (timeMs : UInt32) (answer : Instance × ProtocolType) : Prop :=
  ∃ found, Ends SearchPass (c.checkTimeout timeMs) found ∧
    answer = if found.2 = .none then (found.1.recordTime timeMs, .none) else found

/-- One pass of the `while` loop in `parse_messages`, with the results before it. -/
def DrainPass (state : Instance × List Report)
    (answer : (Instance × List Report) ⊕ (Instance × List Report)) : Prop :=
  ∃ found, state.1.ParseReturns 0 found ∧
    answer =
      if found.2 = .none then .inr (found.1, state.2)
      else .inl (found.1, state.2 ++ [found.1.report found.2])

variable {c : Instance}

/-! ### One call -/

theorem ordered_reaches {after : Instance} {reports : List Report} (ordered : c.head ≤ c.scan)
    (path : Reaches step c reports after) : after.head ≤ after.scan := by
  have kept (d next : Instance) (now : List Report) (ordered : d.head ≤ d.scan)
      (taken : d.step = some (next, now)) : next.head ≤ next.scan := by
    obtain ⟨inside, rfl, -⟩ := step_eq_some taken
    exact (turn_progress ordered inside).1
  exact @Reaches.invariant _ _ step c after reports (fun d => d.head ≤ d.scan) kept path ordered

theorem checkTimeout_ordered (ordered : c.head ≤ c.scan) (timeMs : UInt32) :
    (c.checkTimeout timeMs).head ≤ (c.checkTimeout timeMs).scan := by
  unfold checkTimeout
  split
  · exact Nat.le_refl _
  · exact ordered

/-- The loop ends where the search with fuel ends: a byte is consumed for good, a byte is looked
at, or the first error is reported in every pass. -/
theorem search_ends (ordered : c.head ≤ c.scan) : Ends SearchPass c (search c.budget c) := by
  have ends : ∃ found, Ends SearchPass c found ∧ ∀ fuel, c.budget ≤ fuel → search fuel c = found := by
    refine Ends.of_measure (fun c => c.head ≤ c.scan)
      (fun c found => ∀ fuel, c.budget ≤ fuel → search fuel c = found) budget ?_ ordered
    intro c ordered
    by_cases inside : c.scan < c.tail
    case neg =>
      refine .inl ⟨(c, .none), (if_neg inside).symm, ?_⟩
      rintro (_ | fuel) -
      · rfl
      · exact if_neg inside
    obtain ⟨ordered', less⟩ := turn_progress ordered inside
    have unfolds (fuel : Nat) : search (fuel + 1) c =
        if c.turn.2 = .none then search fuel c.turn.1 else c.turn := if_pos inside
    have passes (answer) : c.SearchPass answer ↔
        answer = if c.turn.2 = .none then .inl c.turn.1 else .inr c.turn := by
      unfold SearchPass
      rw [if_pos inside]
    by_cases silent : c.turn.2 = .none
    · refine .inr ⟨c.turn.1, (passes _).mpr (if_pos silent).symm, ordered', less, ?_⟩
      rintro found later (_ | fuel) enough
      · omega
      · rw [unfolds, if_pos silent]
        exact later fuel (by omega)
    · refine .inl ⟨c.turn, (passes _).mpr (if_neg silent).symm, ?_⟩
      rintro (_ | fuel) enough
      · omega
      · rw [unfolds, if_neg silent]
  obtain ⟨found, ends, same⟩ := ends
  rwa [same _ (Nat.le_refl _)]

theorem parse_returns (ordered : c.head ≤ c.scan) (timeMs : UInt32) :
    c.ParseReturns timeMs (c.isCommParseTimeout timeMs) :=
  ⟨_, search_ends (checkTimeout_ordered ordered timeMs), rfl⟩

/-! ### The drain loop -/

private theorem isCommParse_silent (silent : (search c.budget c).2 = .none) :
    c.isCommParse.2 = .none := by
  unfold isCommParse isCommParseTimeout
  rw [checkTimeout_zero]
  simp only [if_pos silent]

private theorem isCommParse_found (found : c.isCommParse.2 ≠ .none) :
    c.isCommParse = search c.budget c := by
  have some : (search c.budget c).2 ≠ .none := fun silent => found (isCommParse_silent silent)
  unfold isCommParse isCommParseTimeout
  rw [checkTimeout_zero]
  simp only [if_neg some]

/-- A result costs passes, so there are only so many of them. -/
theorem drain_ends (ordered : c.head ≤ c.scan) : Ends DrainPass (c, []) c.drain := by
  have ends : ∃ drained, Ends DrainPass (c, []) drained ∧ ∀ fuel, c.budget < fuel →
      ((drainFor fuel c).1, [] ++ (drainFor fuel c).2) = drained := by
    refine @Ends.of_measure _ _ DrainPass (c, []) (fun state => state.1.head ≤ state.1.scan)
      (fun state drained => ∀ fuel, state.1.budget < fuel →
        ((drainFor fuel state.1).1, state.2 ++ (drainFor fuel state.1).2) = drained)
      (fun state => state.1.budget) ?_ ordered
    rintro ⟨c, reports⟩ ordered
    change c.head ≤ c.scan at ordered
    have returns := parse_returns ordered 0
    by_cases silent : c.isCommParse.2 = .none
    · refine .inl ⟨(c.isCommParse.1, reports), ⟨_, returns, (if_pos silent).symm⟩, ?_⟩
      rintro (_ | fuel) enough
      · cases enough
      · unfold drainFor
        rw [if_pos silent, List.append_nil]
    · obtain ⟨path, -, less⟩ := @search_reaches c.budget c ordered (Nat.le_refl _)
      rw [← isCommParse_found silent] at path less
      refine .inr ⟨(c.isCommParse.1, reports ++ [c.isCommParse.1.report c.isCommParse.2]),
        ⟨_, returns, (if_neg silent).symm⟩, ordered_reaches ordered path, less silent, ?_⟩
      rintro drained later (_ | fuel) enough
      · cases enough
      · have shorter := less silent
        have unfolds : drainFor (fuel + 1) c = ((drainFor fuel c.isCommParse.1).1,
            c.isCommParse.1.report c.isCommParse.2 :: (drainFor fuel c.isCommParse.1).2) :=
          if_neg silent
        have rest := later fuel (by dsimp only at enough ⊢; omega)
        rw [← rest, unfolds, List.append_assoc]
        rfl
  obtain ⟨drained, ends, same⟩ := ends
  rw [← same (c.budget + 1) (Nat.lt_succ_self _)] at ends
  exact ends

/-! ### What a rejection consumes -/

/-- No packet will start at this byte, or before it. -/
def Consumed (start : Nat) (c : Instance) : Prop :=
  start < c.scan ∧ (c.processPkt.isSome → start < c.head)

theorem Consumed.turn {start : Nat} (ordered : c.head ≤ c.scan) (consumed : c.Consumed start) :
    c.turn.1.Consumed start := by
  obtain ⟨passed, behind⟩ := consumed
  cases turn_moves ordered with
  | starts _ _ head scan => exact ⟨by omega, fun _ => by omega⟩
  | waits busy _ head scan =>
    have := behind busy
    exact ⟨by omega, fun _ => by omega⟩
  | rejects busy idle head scan =>
    have := behind busy
    exact ⟨by omega, fun running => by simp [idle] at running⟩
  | skips _ idle _ scan | stops _ idle _ scan | accepts _ idle _ scan | refuses _ idle _ scan =>
    exact ⟨by omega, fun running => by simp [idle] at running⟩

theorem Consumed.reaches {start : Nat} {after : Instance} {reports : List Report}
    (ordered : c.head ≤ c.scan) (consumed : c.Consumed start)
    (path : Reaches step c reports after) : after.Consumed start := by
  have kept (d next : Instance) (now : List Report) (both : d.head ≤ d.scan ∧ d.Consumed start)
      (taken : d.step = some (next, now)) : next.head ≤ next.scan ∧ next.Consumed start := by
    obtain ⟨inside, rfl, -⟩ := step_eq_some taken
    exact ⟨(turn_progress both.1 inside).1, both.2.turn both.1⟩
  exact (@Reaches.invariant _ _ step c after reports
    (fun d => d.head ≤ d.scan ∧ d.Consumed start) kept path ⟨ordered, consumed⟩).2

/-- A processor that stops, whether it rejects or accepts, has consumed its start byte. -/
theorem stopped_consumes (ordered : c.head ≤ c.scan) (busy : c.processPkt.isSome)
    (stopped : c.turn.1.processPkt = none) : c.turn.1.Consumed c.head := by
  refine ⟨?_, fun running => by simp [stopped] at running⟩
  cases turn_moves ordered with
  | skips idle | starts idle | stops idle => simp [idle] at busy
  | waits _ busy' => simp [stopped] at busy'
  | rejects _ _ _ scan | accepts _ _ _ scan | refuses _ _ _ scan => omega

end Instance

open Instance

/-- From every state with `head <= scan`, and whatever is in the buffer, `is_comm_parse_timeout`
returns, the loop of `parse_messages` ends, and a byte at which a processor has started and
stopped again is never a start byte again. -/
theorem parsing_terminates {c : Instance} (ordered : c.head ≤ c.scan) (timeMs : UInt32) :
    c.ParseReturns timeMs (c.isCommParseTimeout timeMs) ∧
      Ends DrainPass (c, []) c.drain ∧
      ∀ reports d now next, Reaches step (c.checkTimeout timeMs) reports d →
        d.processPkt.isSome → d.step = some (next, now) → next.processPkt = none →
        ∀ later e, Reaches step next later e → e.Consumed d.head := by
  refine ⟨parse_returns ordered timeMs, drain_ends ordered, ?_⟩
  intro reports d now next path busy taken stopped later e rest
  have before := ordered_reaches (checkTimeout_ordered ordered timeMs) path
  obtain ⟨inside, rfl, -⟩ := step_eq_some taken
  exact (stopped_consumes before busy stopped).reaches (turn_progress before inside).1 rest

/-- Start bytes of three protocols within the frames that the ones before them begin. -/
def falseStarts : Instance :=
  (isCommInit (fun _ => 0) 16).append [0xEF, 0x49, 0xEF, 0x24, 0xD3, 0xB5, 0x62, 0xEF]

theorem parsing_terminates_false_starts :
    falseStarts.ParseReturns 7 (falseStarts.isCommParseTimeout 7) ∧
      Ends DrainPass (falseStarts, []) falseStarts.drain :=
  ⟨(parsing_terminates (by decide) 7).1, (parsing_terminates (by decide) 7).2.1⟩

end InertialSense.Comm
