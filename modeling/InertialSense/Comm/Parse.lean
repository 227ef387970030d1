import InertialSense.Comm.Process

/-! The receive loop of `ISComm.c`: making room in the buffer, the search for packets, and
the calls that feed it. -/

namespace InertialSense.Comm

open Foundation

namespace Instance

/-- One pass of the `while` loop in `is_comm_parse_timeout`, `buf->scan++` included. A byte
that starts no packet is skipped, unless an error is reported for it. -/
def turn (c : Instance) : Instance × ProtocolType :=
  match c.processPkt with
  | some processor =>
    let processed := processor.process c
    ({ processed.1 with scan := processed.1.scan + 1 }, processed.2)
  | none =>
    match startOf c.current with
    | some processor =>
      if c.enabledMask &&& processor.enableBit ≠ 0 then
        ({ c.setParserStart processor with scan := c.scan + 1 }, .none)
      else ({ c with scan := c.scan + 1 }, .none)
    | none =>
      if (c.reportParseError .streamUnparsable).2 = .parseError then
        c.reportParseError .streamUnparsable
      else ({ c with scan := c.scan + 1 }, .none)

/-- The first byte of the buffer that no later packet start can precede. -/
def floor (c : Instance) : Nat := if c.processPkt.isSome then c.head + 1 else c.scan

/-- The passes that are left: each packet start is tried once, and each try looks at no more
than the bytes that are there. -/
def passes (c : Instance) : Nat :=
  (c.tail - c.floor) * (c.tail + 2) + if c.processPkt.isSome then c.tail - c.scan + 1 else 0

/-- A bound on the passes the loop can still make before it runs out of bytes. Reporting the
first error after a packet takes a pass that does not move. -/
def budget (c : Instance) : Nat := 2 * c.passes + if c.rxErrorState then 0 else 1

/-- The `while` loop of `is_comm_parse_timeout`, for at most `fuel` passes. -/
def search : Nat → Instance → Instance × ProtocolType
  | 0, c => (c, .none)
  | fuel + 1, c =>
    if c.scan < c.tail then
      if c.turn.2 = .none then search fuel c.turn.1 else c.turn
    else (c, .none)

def pktParserTimeoutMs : UInt32 := 100

/-- The timeout check at the start of `is_comm_parse_timeout`. -/
def checkTimeout (c : Instance) (timeMs : UInt32) : Instance :=
  if c.processPkt.isSome ∧ c.parser.timeMs + pktParserTimeoutMs < timeMs then
    resetParser { c with head := c.head + 1 }
  else c

/-- A parse in progress records the time at the end of `is_comm_parse_timeout`. -/
def recordTime (c : Instance) (timeMs : UInt32) : Instance :=
  if c.processPkt.isSome then { c with parser := { c.parser with timeMs } } else c

def isCommParseTimeout (c : Instance) (timeMs : UInt32) : Instance × ProtocolType :=
  let started := c.checkTimeout timeMs
  let found := search started.budget started
  if found.2 = .none then (found.1.recordTime timeMs, .none) else found

def isCommParse (c : Instance) : Instance × ProtocolType := c.isCommParseTimeout 0

/-- The buffer is dropped, since it is mostly full and can hardly be shifted. -/
def flushed (c : Instance) : Instance :=
  { (c.parseErrorResetState .rxbufferFlushed).1 with head := 0, tail := 0, scan := 0 }

/-- The data is moved to the start of the buffer. -/
def shifted (c : Instance) : Instance :=
  { c with
    mem := store c.mem 0 (window c.mem c.head (c.tail - c.head))
    head := 0
    tail := c.tail - c.head
    scan := c.scan - c.head }

/-- `is_comm_free`: the instance with its buffer realigned, and the free bytes. -/
def isCommFree (c : Instance) : Instance × Nat :=
  if c.tail = c.bufSize then
    let room := if c.head < c.bufSize / 3 then c.flushed else c.shifted
    (room, room.bufSize - room.tail)
  else (c, c.bufSize - c.tail)

/-- The bytes are written at `tail`, which moves behind them. -/
def append (c : Instance) (bytes : List UInt8) : Instance :=
  { c with mem := store c.mem c.tail bytes, tail := c.tail + bytes.length }

def isCommParseByteTimeout (c : Instance) (byte : UInt8) (timeMs : UInt32) :
    Instance × ProtocolType :=
  (c.isCommFree.1.append [byte]).isCommParseTimeout timeMs

def isCommParseByte (c : Instance) (byte : UInt8) : Instance × ProtocolType :=
  c.isCommParseByteTimeout byte 0

/-- `while ((ptype = is_comm_parse(comm)) != _PTYPE_NONE)`, for at most `fuel` results. -/
def drainFor : Nat → Instance → Instance × List Report
  | 0, c => (c, [])
  | fuel + 1, c =>
    if c.isCommParse.2 = .none then (c.isCommParse.1, [])
    else
      ((drainFor fuel c.isCommParse.1).1,
        c.isCommParse.1.report c.isCommParse.2 :: (drainFor fuel c.isCommParse.1).2)

/-- Parse until `_PTYPE_NONE` is returned. -/
def drain (c : Instance) : Instance × List Report := drainFor (c.budget + 1) c

/-- `is_comm_parse_byte`, then `is_comm_parse` until nothing is found. -/
def feedByte (c : Instance) (byte : UInt8) : Instance × List Report :=
  let found := c.isCommParseByte byte
  if found.2 = .none then (found.1, [])
  else (found.1.drain.1, found.1.report found.2 :: found.1.drain.2)

/-- A read: `is_comm_free`, the bytes that arrived, then parse until nothing is found. -/
def read (c : Instance) (bytes : List UInt8) : Instance × List Report :=
  (c.isCommFree.1.append bytes).drain

end Instance

/-- The handlers a caller has set in `is_comm_callbacks_t`. -/
structure Callbacks where
  isb : Bool
  isbData : Bool
  nmea : Bool
  ublox : Bool
  rtcm3 : Bool
  sprtn : Bool
  sony : Bool
  error : Bool
  all : Bool

/-- The handler that is called. -/
inductive Handler where
  | isb
  | isbData
  | nmea
  | ublox
  | rtcm3
  | sprtn
  | sony
  | error
  | all
deriving DecidableEq

/-- The handlers `parse_messages` calls for a result, in order. -/
def Callbacks.handlers (callbacks : Callbacks) (ptype : ProtocolType) : List Handler :=
  let isb := if callbacks.isb then [Handler.isb] else []
  let ofType :=
    match ptype with
    | .inertialSenseData => isb ++ if callbacks.isbData then [.isbData] else []
    | .inertialSenseAck | .inertialSenseCmd => isb
    | .nmea => if callbacks.nmea then [.nmea] else []
    | .rtcm3 => if callbacks.rtcm3 then [.rtcm3] else []
    | .spartn => if callbacks.sprtn then [.sprtn] else []
    | .ublox => if callbacks.ublox then [.ublox] else []
    | .sony => if callbacks.sony then [.sony] else []
    | .parseError => if callbacks.error then [.error] else []
    | .none => []
  ofType ++ if callbacks.all then [.all] else []

/-- The calls for one result, each with the packet it is given. -/
def Callbacks.dispatch (callbacks : Callbacks) (report : Report) : List (Handler × Report) :=
  (callbacks.handlers report.ptype).map fun handler => (handler, report)

def parseMessages (callbacks : Callbacks) (c : Instance) : Instance × List (Handler × Report) :=
  (c.drain.1, c.drain.2.flatMap callbacks.dispatch)

def isCommBufferParseMessages (callbacks : Callbacks) (c : Instance) (buf : List UInt8) :
    Instance × List (Handler × Report) :=
  let n := min buf.length c.isCommFree.2
  parseMessages callbacks (c.isCommFree.1.append (buf.take n))

end InertialSense.Comm
