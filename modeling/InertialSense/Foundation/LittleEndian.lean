import InertialSense.Foundation.Memory

/-! Numbers in little-endian memory: their bytes, reading them back, and what a read depends
on. -/

namespace Foundation

/-- The number whose little-endian bytes these are. -/
def fromBytes : List UInt8 → Nat
  | [] => 0
  | byte :: rest => byte.toNat + 256 * fromBytes rest

/-- The lowest `count` bytes of a number. -/
def toBytes : Nat → Nat → List UInt8
  | 0, _ => []
  | count + 1, value => UInt8.ofNat value :: toBytes count (value / 256)

@[simp] theorem toBytes_length (count value : Nat) : (toBytes count value).length = count := by
  induction count generalizing value with
  | zero => rfl
  | succ count ih => simp [toBytes, ih]

theorem toBytes_fromBytes (bytes : List UInt8) : toBytes bytes.length (fromBytes bytes) = bytes := by
  induction bytes with
  | nil => rfl
  | cons byte rest ih =>
    have bound := byte.toNat_lt
    have low : UInt8.ofNat (byte.toNat + 256 * fromBytes rest) = byte := by
      apply UInt8.toNat_inj.mp
      rw [UInt8.toNat_ofNat']
      omega
    have high : (byte.toNat + 256 * fromBytes rest) / 256 = fromBytes rest := by omega
    simp [fromBytes, toBytes, low, high, ih]

theorem fromBytes_toBytes {count value : Nat} (fits : value < 256 ^ count) :
    fromBytes (toBytes count value) = value := by
  induction count generalizing value with
  | zero =>
    obtain rfl : value = 0 := by simpa using fits
    rfl
  | succ count ih =>
    have high : value / 256 < 256 ^ count :=
      Nat.div_lt_of_lt_mul (by rwa [Nat.pow_succ, Nat.mul_comm] at fits)
    have low : (UInt8.ofNat value).toNat = value % 256 := UInt8.toNat_ofNat'
    rw [toBytes, fromBytes, ih high, low]
    omega

theorem fromBytes_lt (bytes : List UInt8) : fromBytes bytes < 256 ^ bytes.length := by
  induction bytes with
  | nil => decide
  | cons byte rest ih =>
    have bound := byte.toNat_lt
    rw [List.length_cons, Nat.pow_succ, fromBytes]
    omega

theorem ofNat_fromBytes (value : UInt32) :
    UInt32.ofNat (fromBytes (toBytes 4 value.toNat)) = value := by
  rw [fromBytes_toBytes value.toNat_lt, UInt32.ofNat_toNat]

/-- Two memories hold the same in their first `count` cells. -/
def SameBelow {α : Type*} (count : Nat) (mem mem' : Nat → α) : Prop :=
  ∀ k < count, mem k = mem' k

def halfAt (mem : Nat → UInt8) (start : Nat) : UInt16 := UInt16.ofNat (fromBytes (window mem start 2))

def wordAt (mem : Nat → UInt8) (start : Nat) : UInt32 := UInt32.ofNat (fromBytes (window mem start 4))

section SameBelow

variable {α : Type*} {count start : Nat}

theorem SameBelow.mono {mem mem' : Nat → α} (same : SameBelow count mem mem') {fewer : Nat}
    (le : fewer ≤ count) : SameBelow fewer mem mem' :=
  fun k inside => same k (Nat.lt_of_lt_of_le inside le)

theorem SameBelow.window {mem mem' : Nat → α} (same : SameBelow count mem mem') {length : Nat}
    (inside : start + length ≤ count) : window mem start length = Foundation.window mem' start length :=
  window_congr fun k small => same (start + k) (by omega)

theorem SameBelow.halfAt {mem mem' : Nat → UInt8} (same : SameBelow count mem mem')
    (inside : start + 2 ≤ count) : halfAt mem start = Foundation.halfAt mem' start := by
  unfold Foundation.halfAt
  rw [same.window inside]

theorem SameBelow.wordAt {mem mem' : Nat → UInt8} (same : SameBelow count mem mem')
    (inside : start + 4 ≤ count) : wordAt mem start = Foundation.wordAt mem' start := by
  unfold Foundation.wordAt
  rw [same.window inside]

end SameBelow

/-- A copy of the first cells of one memory into another makes them the same there. -/
theorem store_sameBelow {α : Type*} (mem source : Nat → α) (count : Nat) :
    SameBelow count (store mem 0 (window source 0 count)) source := by
  intro k inside
  have member : k < (window source 0 count).length := by simpa using inside
  have copied : store mem 0 (window source 0 count) (0 + k) = (window source 0 count)[k] :=
    store_inside mem member
  rw [Nat.zero_add] at copied
  rw [copied]
  simp [window]

/-- Cells that are overwritten with what they hold. -/
theorem store_window_self {α : Type*} (mem : Nat → α) (start count : Nat) :
    store mem start (window mem start count) = mem := by
  funext address
  by_cases inside : start ≤ address ∧ address < start + count
  · obtain ⟨k, rfl⟩ := Nat.exists_eq_add_of_le inside.1
    rw [store_inside mem (by simp; omega)]
    simp [window]
  · exact store_outside mem (by simp; omega)

theorem toBytes_wordAt (mem : Nat → UInt8) (start : Nat) :
    toBytes 4 (wordAt mem start).toNat = window mem start 4 := by
  have bound : fromBytes (window mem start 4) < 2 ^ 32 := by
    simpa using fromBytes_lt (window mem start 4)
  rw [wordAt, UInt32.toNat_ofNat', Nat.mod_eq_of_lt bound]
  simpa using toBytes_fromBytes (window mem start 4)

theorem toBytes_halfAt (mem : Nat → UInt8) (start : Nat) :
    toBytes 2 (halfAt mem start).toNat = window mem start 2 := by
  have bound : fromBytes (window mem start 2) < 2 ^ 16 := by
    simpa using fromBytes_lt (window mem start 2)
  rw [halfAt, UInt16.toNat_ofNat', Nat.mod_eq_of_lt bound]
  simpa using toBytes_fromBytes (window mem start 2)

theorem wordAt_inj {mem mem' : Nat → UInt8} {start : Nat} :
    wordAt mem start = wordAt mem' start ↔ window mem start 4 = window mem' start 4 := by
  refine ⟨fun same => ?_, fun same => ?_⟩
  · rw [← toBytes_wordAt, same, toBytes_wordAt]
  · unfold wordAt
    rw [same]

end Foundation
