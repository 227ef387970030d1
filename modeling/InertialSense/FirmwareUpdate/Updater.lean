import InertialSense.FirmwareUpdate.Commands
import InertialSense.FirmwareUpdate.Host
import InertialSense.Foundation.Run

/-! `ISFirmwareUpdater`: a queue of commands that drives the host through one upload after
another, and what it does when one of them fails. -/

namespace InertialSense.FirmwareUpdate

open Foundation
open Md5 (Hash)

def UpdateStatus.name : UpdateStatus → String
  | finished => "FINISHED"
  | finalizing => "FINALIZING"
  | inProgress => "IN_PROGRESS"
  | ready => "READY"
  | initializing => "INITIALIZING"
  | notStarted => "NOT_STARTED"
  | errInvalidSession => "ERR_INVALID_SESSION"
  | errInvalidSlot => "ERR_INVALID_SLOT"
  | errNotAllowed => "ERR_NOT_ALLOWED"
  | errNotEnoughMemory => "ERR_NOT_ENOUGH_MEMORY"
  | errOlderFirmware => "ERR_OLDER_FIRMWARE"
  | errMaxChunkSize => "ERR_MAX_CHUNK_SIZE"
  | errTimeout => "ERR_TIMEOUT"
  | errChecksumMismatch => "ERR_CHECKSUM_MISMATCH"
  | errComms => "ERR_COMMS"
  | errNotSupported => "ERR_NOT_SUPPORTED"
  | errFlashWriteFailure => "ERR_FLASH_WRITE_FAILURE"
  | errFlashOpenFailure => "ERR_FLASH_OPEN_FAILURE"
  | errFlashInvalid => "ERR_FLASH_INVALID"
  | errUpdaterClosed => "ERR_UPDATER_CLOSED"
  | errInvalidImage => "ERR_INVALID_IMAGE"
  | errInvalidChunk => "ERR_INVALID_CHUNK"
  | errInvalidTarget => "ERR_INVALID_TARGET"
  | errUnknown => "ERR_UNKNOWN"

/-- `pkg_error_e`. -/
inductive PkgError where
  | success
  | packageFileError
  | invalidImages
  | invalidSteps
  | invalidTarget
  | unsupportedTarget
  | noActions
  | imageInvalidReference
  | imageUnknownPath
  | imageFileNotFound
  | imageFileSizeMismatch
  | imageFileMd5Mismatch
deriving DecidableEq

def PkgError.value : PkgError → Int
  | success => 0
  | packageFileError => -1
  | invalidImages => -2
  | invalidSteps => -3
  | invalidTarget => -4
  | unsupportedTarget => -5
  | noActions => -6
  | imageInvalidReference => -7
  | imageUnknownPath => -8
  | imageFileNotFound => -9
  | imageFileSizeMismatch => -10
  | imageFileMd5Mismatch => -11

/-- The text `runCommand` has for a package error. -/
def PkgError.errMsg : PkgError → String
  | success => ""
  | packageFileError => "Unable to open package."
  | invalidImages => "Manifest has no images defined, or is malformed."
  | invalidSteps => "Manifest has no steps defined, or is malformed."
  | invalidTarget => "Manifest references an invalid target, or no target defined for image."
  | unsupportedTarget => "Image references an invalid or unsupported target device."
  | noActions => "Manifest has no valid actions."
  | imageInvalidReference => "Manifest references an invalid or non-existent image entry."
  | imageUnknownPath => "Manifest image path is missing or invalid."
  | imageFileNotFound =>
    "Manifest image reference is valid, but the backing datafile is missing."
  | imageFileSizeMismatch =>
    "Manifest's reported image size does not match the actual data file size."
  | imageFileMd5Mismatch =>
    "Manifest's reported image MD5 digest does not match the actual data file MD5 digest."

/-- The places at which a call reads the clock, which may go on between them. -/
inductive Reading where
  | pause
  | setTarget
  | delay
  | ping
  | pingTimeout
  | pingRetry
  | pingNext
  | start
  | startAttempt
  | request
  | wire
  | uploadAttempt
  | messageAge
  | backoff
  | retry
  | retryNext
  | chunk
  | finished
  | timeout
deriving DecidableEq

/-- What opening an image file finds: no such entry in the package, a file that cannot be
read, or its bytes with their MD5. -/
inductive ImageSource where
  | missing
  | unreadable
  | image (bytes : List UInt8) (md5 : Hash)

/-- The clock, the random number, the wire and the files, as one call finds them. A package
adds commands to the queue before its processing ends. -/
structure UpdaterAnswers where
  clock : Reading → UInt32
  rand : UInt16
  writeToWire : Bool
  source : ImageSource
  package : List String × PkgError

def UpdaterAnswers.host (answers : UpdaterAnswers) : HostAnswers :=
  { currentTimeMs := answers.clock .request
    rand := answers.rand
    writeToWire := answers.writeToWire }

/-- The clock stands still, every write succeeds and there are no files. -/
def UpdaterAnswers.atTime (time : UInt32) : UpdaterAnswers :=
  { clock := fun _ => time
    rand := 1
    writeToWire := true
    source := .missing
    package := ([], .success) }

/-- An entry of `stepErrors`. -/
structure StepError where
  step : String
  cmd : String
  message : String
deriving DecidableEq

/-- What `sscanf` reads from `devInfo->addInfo` where it has the version of a GPX. -/
structure GpxVersion where
  v1 : Int
  v2 : Int
  v3 : Int
  v4 : Int

/-- `ISFirmwareUpdater`. `targetDevInfo` tells whether the pointer is set; it then points at
`remoteDevInfo`. -/
structure Updater where
  host : Host
  timeoutDuration : UInt32
  nextStartAttempt : UInt32
  startAttempts : Int8
  nextChunkSend : UInt32
  updateStartTime : UInt32
  commands : List String
  activeStep : String
  activeCommand : String
  failLabel : String
  requestPending : Bool
  slotNum : Int32
  chunkSize : Int32
  progressRate : Int32
  forceUpdate : Bool
  pingInterval : UInt32
  pingNextRetry : UInt32
  pingTimeout : UInt32
  pauseUntil : UInt32
  filename : String
  target : UInt32
  remoteDevInfo : DevInfo
  targetDevInfo : Bool
  devInfo : DevInfo
  gpxVersion : Option GpxVersion
  stepErrors : List StepError

/-- What an observer sees: the command that `runCommand` is called with, what is written to the
wire, and a call of `handleCommandError` with the queue and the label at that time. -/
inductive UpdaterEvent where
  | executes (cmd : String)
  | sends (payload : Payload)
  | raises (cmd : String) (queue : List String) (label : String)
deriving DecidableEq

def UpdaterEvent.executed? : UpdaterEvent → Option String
  | .executes cmd => some cmd
  | .sends _ | .raises _ _ _ => none

/-- The first command that `runCommand` is called with. -/
def firstExecuted (events : List UpdaterEvent) : Option String :=
  events.findSome? UpdaterEvent.executed?

/-- The values of `target_t` that commands name. -/
def targetNamed : String → Option UInt32
  | "IMX5" => some 0x10
  | "GPX1" => some 0x20
  | "GNSS1" => some 0x121
  | "GNSS2" => some 0x122
  | _ => none

/-- A `dev_info_t` after `memset`. -/
def DevInfo.zero : DevInfo :=
  { serialNumber := 0, hardwareType := 0, hardwareVer := 0, firmwareVer := 0, buildNumber := 0
    buildType := 0, buildYear := 0, buildMonth := 0, buildDay := 0, buildHour := 0
    buildMinute := 0, buildSecond := 0, buildMillisecond := 0 }

namespace Updater

/-- A new updater with its commands. `target` is not initialised by the constructor. -/
def create (devInfo : DevInfo) (gpxVersion : Option GpxVersion) (target : UInt32)
    (commands : List String) : Updater :=
  { host := Host.create
    timeoutDuration := 20000
    nextStartAttempt := 0
    startAttempts := 0
    nextChunkSend := 0
    updateStartTime := 0
    commands
    activeStep := ""
    activeCommand := ""
    failLabel := ""
    requestPending := false
    slotNum := 0
    chunkSize := 512
    progressRate := 250
    forceUpdate := false
    pingInterval := 1000
    pingNextRetry := 0
    pingTimeout := 0
    pauseUntil := 0
    filename := ""
    target
    remoteDevInfo := DevInfo.zero
    targetDevInfo := false
    devInfo
    gpxVersion
    stepErrors := [] }

variable (u : Updater) (answers : UpdaterAnswers)

def isDone : Bool :=
  let cmdsPending := !u.commands.isEmpty
  let inProgress := 0 < u.host.sessionStatus.value && u.host.sessionStatus.value < 5
  !(cmdsPending || u.requestPending || inProgress)

/-- `fwUpdate_writeToWire` for what the host sends: firmware 2.0.0.10 and older does not know
image flags. There is never a `dfuUpdater`. -/
def wire (payload : Payload) : Payload :=
  let version := u.remoteDevInfo.firmwareVer
  match payload.message with
  | .reqUpdate request =>
    if version &&& 0xFFFFFF = 2 ∧ version >>> 24 ≤ 10 then
      { payload with message := .reqUpdate { request with imageFlags := 0 } }
    else payload
  | _ => payload

/-- A message is written to the wire; `chunkDelay` passes before the next chunk. -/
def write (payload : Payload) : Updater × List UpdaterEvent :=
  ({ u with nextChunkSend := answers.clock .wire + 15 },
    if answers.writeToWire then [.sends (u.wire payload)] else [])

/-- The host acts. It writes to the wire if it would, were every write to succeed. -/
def act (action : HostAnswers → Host × List Payload) : Updater × List UpdaterEvent :=
  let acted := action answers.host
  let attempted := (action { answers.host with writeToWire := true }).2
  ({ u with
      host := acted.1
      nextChunkSend := if attempted = [] then u.nextChunkSend else answers.clock .wire + 15 },
    acted.2.map fun payload => .sends (u.wire payload))

def setTarget (target : UInt32) : Updater :=
  { u with
    host := { u.host with sessionTarget := target, sessionImageSlot := 0 }
    target
    targetDevInfo := false
    pauseUntil := answers.clock .setTarget + 2000 }

/-- The session is reset, unless there is no command left. -/
def resetSession : Updater :=
  if u.commands = [] then u else { u with requestPending := false, host := u.host.resetEngine }

/-- The entry of an error, whose message has a buffer of 256 bytes. -/
def errorEntry (cmd message : String) : StepError :=
  { step := u.activeStep, cmd, message := String.ofList (message.toList.take 255) }

def enterError (cmd message : String) : Updater :=
  { u with stepErrors := u.stepErrors ++ [u.errorEntry cmd message] }

def skipToLabel : Updater :=
  if u.failLabel = "" then { u with commands := [], target := targetHost }
  else { u with commands := u.commands.dropWhile (· ≠ u.failLabel) }

def handleCommandError (cmd message : String) : Updater :=
  (u.resetSession.enterError cmd message).skipToLabel

/-! ### Commands -/

/-- What a branch of `runCommand` leaves; `returned` if the function returns there. -/
structure Ran where
  updater : Updater
  returned : Bool
  events : List UpdaterEvent

/-- An error in a branch of `runCommand`. -/
def fail (returned : Bool) (cmd message : String) : Ran :=
  { updater := u.handleCommandError cmd message
    returned
    events := [.raises cmd u.commands u.failLabel] }

def runPackage (name file : String) : Ran :=
  let u := { u with commands := u.commands ++ answers.package.1 }
  if answers.package.2 = .success then { updater := u, returned := false, events := [] }
  else
    u.fail false name <|
      "Error processing firmware package [" ++ file ++ "] (Error code: " ++
        toString answers.package.2.value ++ ") :: " ++ answers.package.2.errMsg

/-- A label starts a step: the target, the slot and the label for errors are reset. -/
def runLabel (step : String) : Ran :=
  let u := { u with activeStep := step }
  let u :=
    match targetNamed step with
    | some target => u.setTarget answers target
    | none => { u with target := targetHost, host := { u.host with sessionTarget := targetHost } }
  { updater :=
      { u with host := { u.host with sessionImageSlot := 0 }, slotNum := 0, failLabel := "" }
    returned := false
    events := [] }

def runTarget (name argument : String) : Ran :=
  match targetNamed argument with
  | some target => { updater := u.setTarget answers target, returned := false, events := [] }
  | none =>
    u.fail false name <|
      "Invalid Target specified: " ++ argument ++
        "  (Valid targets are: IMX5, GPX1, GNSS1, GNSS2)"

def runOnError (name label : String) : Ran :=
  if label.toList.head? = some ':' then
    { updater := { u with failLabel := label }, returned := false, events := [] }
  else
    { u with failLabel := "" }.fail false name
      "Invalid label. Labels must start with a colon (:)."

/-- The first call sets the schedule; later ones ask for the version until there is a response
or the time is over. -/
def runWaitfor (name limit : String) (interval : Option String) (again : Bool) : Ran :=
  let u :=
    if again then
      { u with
        commands := (name ++ "=" ++ limit ++ "," ++ interval.getD "") :: u.commands.tail
        pingTimeout := 0
        pingInterval := 1000
        targetDevInfo := false }
    else u
  if u.targetDevInfo then { updater := u, returned := false, events := [] }
  else if u.pingTimeout = 0 then
    { updater :=
        { u with
          pingTimeout := answers.clock .ping + UInt32.ofInt (strtol limit)
          pingInterval := (interval.map fun text => UInt32.ofInt (strtol text)).getD u.pingInterval }
      returned := true
      events := [] }
  else if u.pingTimeout < answers.clock .pingTimeout then
    { u with pingTimeout := 0, pingNextRetry := 0 }.fail true name
      "Timeout waiting for response from target device."
  else if u.pingNextRetry < answers.clock .pingRetry then
    let u := { u with pingNextRetry := answers.clock .pingNext + u.pingInterval }
    let written := u.write answers { targetDevice := u.target, message := .reqVersionInfo }
    { updater := written.1, returned := true, events := written.2 }
  else { updater := u, returned := true, events := [] }

/-- `filename.substr(filename.find_last_of(".") + 1)`. -/
def extension (file : String) : String :=
  String.ofList (file.toList.reverse.takeWhile (· ≠ '.')).reverse

/-- The flags of an upload. A target that has not told its version may be the device itself, or
one whose version the device tells. -/
def uploadFlags : Updater × UInt8 :=
  let sony := u.target &&& 0x120 = 0x120
  let plain : UInt8 :=
    if sony ∧ (u.slotNum = 4 ∨ u.slotNum = 2 ∧ extension u.filename = "fpk") then 0x01 else 0
  if u.targetDevInfo then (u, plain)
  else if u.target &&& 0x10 ≠ 0 ∧ u.devInfo.hardwareType = 3 ∨
      u.target &&& 0x20 ≠ 0 ∧ u.devInfo.hardwareType = 4 then
    ({ u with remoteDevInfo := u.devInfo, targetDevInfo := true }, plain)
  else if u.target &&& 0x20 ≠ 0 ∧ u.devInfo.hardwareType = 3 then
    match u.gpxVersion with
    | some version =>
      let byte (number : Int) : UInt32 := UInt32.ofInt number &&& 0xFF
      ({ u with
          remoteDevInfo :=
            { u.remoteDevInfo with
              hardwareType := 4
              hardwareVer := 0x00030001
              firmwareVer := byte version.v1 ||| byte version.v2 <<< 8 |||
                byte version.v3 <<< 16 ||| byte version.v4 <<< 24 }
          targetDevInfo := true },
        if version.v1 = 2 ∧ version.v2 = 0 ∧ version.v3 = 0 then plain ||| 0x80 else plain)
    | none => (u, plain)
  else (u, plain ||| 0x80)

/-- `initializeUpdate`, with the status it returns. -/
def initializeUpdate (flags : UInt8) : Updater × UpdateStatus × List UpdaterEvent :=
  match answers.source with
  | .missing => (u, .errInvalidImage, [])
  | .unreadable => ({ u with host := { u.host with image := [] } }, .errInvalidImage, [])
  | .image bytes md5 =>
    let u :=
      { u with
        host := { u.host with image := bytes }
        updateStartTime := answers.clock .start
        nextStartAttempt := answers.clock .startAttempt + 350 }
    let acted := u.act answers fun answers =>
      u.host.requestUpdate answers
        { target := u.target
          imageSlot := UInt8.ofInt u.slotNum.toInt
          imageFlags := flags
          chunkSize := UInt16.ofInt u.chunkSize.toInt
          imageSize := UInt32.ofNat bytes.length
          imageMd5 := md5
          progressRate := UInt16.ofInt u.progressRate.toInt }
    (acted.1, if answers.writeToWire then .notStarted else .errUnknown, acted.2)

def runUpload (name file : String) : Ran :=
  let u := { u with filename := file, host := u.host.resetEngine }
  let prepared := u.uploadFlags
  let started := prepared.1.initializeUpdate answers prepared.2
  let status := started.2.1
  if status.value < 0 then
    started.1.fail false name
      ("Error initiating Firmware upload: [" ++ file ++ "] " ++ status.name)
  else
    { updater :=
        { started.1 with
          requestPending := true
          nextStartAttempt := answers.clock .uploadAttempt + 350 }
      returned := false
      events := started.2.2 }

/-- The branches of `runCommand`. -/
def perform (name : String) : Command → Ran
  | .package file => u.runPackage answers name file
  | .label step => u.runLabel answers step
  | .target argument => u.runTarget answers name argument
  | .onError label => u.runOnError name label
  | .slot number =>
    { updater := { u with slotNum := Int32.ofInt (strtol number) }, returned := false, events := [] }
  | .timeout number =>
    { updater := { u with timeoutDuration := UInt32.ofInt (strtol number) }
      returned := false
      events := [] }
  | .force flag => { updater := { u with forceUpdate := flag }, returned := false, events := [] }
  | .chunk number =>
    { updater := { u with chunkSize := Int32.ofInt (strtol number) }
      returned := false
      events := [] }
  | .rate number =>
    { updater := { u with progressRate := Int32.ofInt (strtol number) }
      returned := false
      events := [] }
  | .delay number =>
    { updater := { u with pauseUntil := answers.clock .delay + UInt32.ofInt (strtol number) }
      returned := false
      events := [] }
  | .waitfor limit interval again => u.runWaitfor answers name limit interval again
  | .upload file => u.runUpload answers name file
  | .reset hard =>
    let written := u.write answers
      { targetDevice := u.target, message := .reqReset (if hard then 1 else 0) }
    { updater := written.1, returned := false, events := written.2 }
  | .finish => { updater := { u with commands := [] }, returned := false, events := [] }
  | .echo | .unknown => { updater := u, returned := false, events := [] }

/-- The end of `runCommand`: the command at the front is removed. -/
def pop : Updater :=
  match u.commands with
  | [] => { u with activeCommand := "" }
  | _ :: rest => { u with commands := rest }

def activate (name : String) : Updater := { u with activeCommand := name }

def runCommand (cmd : String) : Updater × List UpdaterEvent :=
  match Command.decode cmd with
  | none => (u.pop, [.executes cmd])
  | some (name, command) =>
    let ran := (u.activate name).perform answers name command
    (if ran.returned then ran.updater else ran.updater.pop, .executes cmd :: ran.events)

/-! ### Steps -/

/-- The next command waits for a while. -/
def Paused : Prop := u.pauseUntil ≠ 0 ∧ answers.clock .pause < u.pauseUntil

instance : Decidable (u.Paused answers) := inferInstanceAs (Decidable (_ ∧ _))

/-- `fwUpdate_requestUpdate` without arguments. -/
def repeatRequest : Updater × List UpdaterEvent :=
  u.act answers fun answers => (u.host, u.host.repeatRequest answers)

/-- A request without a response is repeated from time to time. -/
def retry : Updater × List UpdaterEvent :=
  if answers.clock .messageAge - u.host.lastMessage ≤ 1500 then (u, [])
  else if 5 ≤ u.startAttempts then
    ({ u with startAttempts := 0, nextStartAttempt := answers.clock .backoff + 3500 }, [])
  else if u.nextStartAttempt < answers.clock .retry then
    let repeated := { u with nextStartAttempt := answers.clock .retryNext + 350 }.repeatRequest answers
    ({ repeated.1 with
        startAttempts := if repeated.2 = [] then u.startAttempts else u.startAttempts + 1 },
      repeated.2)
  else (u, [])

/-- The largest power of two below a chunk size above 1. -/
def halveChunkSize (size : UInt16) : UInt16 :=
  let bits := size.toNat.log2
  if size.toNat = 2 ^ bits then UInt16.ofNat (2 ^ (bits - 1)) else UInt16.ofNat (2 ^ bits)

/-- The `switch` of `fwUpdate_step`, except for the commands. -/
def attend : Updater × List UpdaterEvent :=
  match u.host.sessionStatus with
  | .notStarted => if u.requestPending then u.retry answers else (u, [])
  | .initializing | .finalizing => ({ u with requestPending := false }, [])
  | .ready | .inProgress =>
    let u := { u with requestPending := false }
    if u.nextChunkSend < answers.clock .chunk then u.act answers u.host.sendNextChunk else (u, [])
  | .finished =>
    if u.commands = [] then (u, [])
    else
      ({ u with
          requestPending := false
          host := { u.host with sessionStatus := .notStarted }
          nextStartAttempt := answers.clock .finished + 350 }, [])
  | .errMaxChunkSize =>
    if u.host.sessionId = 0 then (u, [])
    else
      repeatRequest
        { u with
          host :=
            { u.host with
              sessionChunkSize := halveChunkSize u.host.sessionChunkSize
              sessionId := answers.rand } } answers
  | .errTimeout =>
    (u.handleCommandError "upload" "No Response from device.",
      [.raises "upload" u.commands u.failLabel])
  | status =>
    (u.handleCommandError "upload" ("Unexpected response from device : " ++ status.name),
      [.raises "upload" u.commands u.failLabel])

/-- A request or a session that waits for the device. -/
def Waiting : Prop :=
  u.requestPending = true ∨ 0 < u.host.sessionStatus.value ∧ u.host.sessionStatus.value < 5

instance : Decidable u.Waiting := inferInstanceAs (Decidable (_ ∨ _ ∧ _))

def expire : Updater :=
  if u.timeoutDuration < answers.clock .timeout - u.host.lastMessage ∧ u.Waiting then
    { u with host := { u.host with sessionStatus := .errTimeout } }
  else u

def closeSource : Updater :=
  if u.isDone then { u with host := { u.host with image := [] } } else u

/-- The end of `fwUpdate_step`. -/
def conclude : Updater := (u.expire answers).closeSource

/-- A command is next: nothing is requested, and the session has not started. -/
def Idle : Prop := u.host.sessionStatus = .notStarted ∧ u.requestPending = false

instance : Decidable u.Idle := inferInstanceAs (Decidable (_ ∧ _))

def resume : Updater := { u with pauseUntil := 0 }

/-- `fwUpdate_step`. -/
def step : Updater × List UpdaterEvent :=
  match u.commands with
  | cmd :: _ =>
    if u.Idle then
      if u.Paused answers then (u, [])
      else
        ((u.resume.runCommand answers cmd).1.conclude answers, (u.resume.runCommand answers cmd).2)
    else ((u.attend answers).1.conclude answers, (u.attend answers).2)
  | [] => ((u.attend answers).1.conclude answers, (u.attend answers).2)

/-! ### Messages -/

/-- `fwUpdate_handleVersionResponse`. The version of another target is forgotten, and what was
known with it. -/
def handleVersionResponse (resTarget : UInt32) (info : DevInfo) : Updater :=
  if 0 < resTarget ∧ resTarget ≤ 0x130 ∧ resTarget ≠ u.target then
    { u with remoteDevInfo := DevInfo.zero }
  else { u with remoteDevInfo := { info with buildNumber := 0 }, targetDevInfo := true }

/-- The host gives up on a chunk that is requested again and again. -/
def GivesUp (chunkId : UInt16) : Prop :=
  chunkId = u.host.lastResentChunk ∧ 10 < u.host.resentChunkidCount + 1 ∧
    5000 < answers.clock .request - u.host.resentChunkidTime

instance (chunkId : UInt16) : Decidable (u.GivesUp answers chunkId) :=
  inferInstanceAs (Decidable (_ ∧ _ ∧ _))

def processMessage (payload : Payload) : Updater × List UpdaterEvent :=
  if payload.targetDevice ≠ targetHost then (u, [])
  else
    let u :=
      match payload.message with
      | .reqResendChunk sessionId chunkId _ =>
        if sessionId = u.host.sessionId ∧ ¬u.GivesUp answers chunkId then
          { u with nextChunkSend := answers.clock .wire + 250 }
        else u
      | .versionInfoResp resTarget info => u.handleVersionResponse resTarget info
      | _ => u
    u.act answers fun answers => u.host.processMessage answers payload

/-- The calls a device makes of its updater. -/
inductive Operation where
  | step (answers : UpdaterAnswers)
  | receive (answers : UpdaterAnswers) (payload : Payload)

def operate : Operation → Updater × List UpdaterEvent
  | .step answers => u.step answers
  | .receive answers payload => u.processMessage answers payload

/-! ### What the operations leave alone -/

/-- The session has failed. A chunk size that is too large is negotiated again. -/
def Failed : Prop := u.host.sessionStatus.value < 0 ∧ u.host.sessionStatus ≠ .errMaxChunkSize

instance : Decidable u.Failed := inferInstanceAs (Decidable (_ ∧ _))

/-- The status of the session is not an error. -/
def Alive : Prop := UpdateStatus.value .notStarted ≤ u.host.sessionStatus.value

instance : Decidable u.Alive := inferInstanceAs (Decidable (_ ≤ _))

/-- The updater keeps its commands, its label and its errors. -/
structure Keeps (u after : Updater) : Prop where
  commands : after.commands = u.commands
  failLabel : after.failLabel = u.failLabel
  stepErrors : after.stepErrors = u.stepErrors

/-- Nothing but messages. -/
def OnlySends (events : List UpdaterEvent) : Prop := ∀ event ∈ events, ∃ payload, event = .sends payload

theorem firstExecuted_append (first second : List UpdaterEvent) :
    firstExecuted (first ++ second) = (firstExecuted first).or (firstExecuted second) :=
  List.findSome?_append

theorem OnlySends.nil : OnlySends [] := fun _ sent => absurd sent List.not_mem_nil

theorem OnlySends.firstExecuted {events : List UpdaterEvent} (sends : OnlySends events) :
    firstExecuted events = none := by
  refine List.findSome?_eq_none_iff.mpr fun event sent => ?_
  obtain ⟨payload, rfl⟩ := sends event sent
  rfl

variable {u answers}

theorem act_keeps (action : HostAnswers → Host × List Payload) :
    u.Keeps (u.act answers action).1 ∧ OnlySends (u.act answers action).2 := by
  refine ⟨⟨rfl, rfl, rfl⟩, fun event sent => ?_⟩
  obtain ⟨payload, -, rfl⟩ := List.mem_map.mp sent
  exact ⟨_, rfl⟩

theorem retry_host : (u.retry answers).1.host = u.host := by
  unfold retry
  split
  · rfl
  split
  · rfl
  split
  · rfl
  · rfl

theorem retry_keeps : u.Keeps (u.retry answers).1 ∧ OnlySends (u.retry answers).2 := by
  unfold retry
  split
  · exact ⟨⟨rfl, rfl, rfl⟩, OnlySends.nil⟩
  split
  · exact ⟨⟨rfl, rfl, rfl⟩, OnlySends.nil⟩
  split
  · refine ⟨⟨rfl, rfl, rfl⟩, ?_⟩
    dsimp only
    exact (act_keeps _).2
  · exact ⟨⟨rfl, rfl, rfl⟩, OnlySends.nil⟩

def failureMessage : UpdateStatus → String
  | .errTimeout => "No Response from device."
  | status => "Unexpected response from device : " ++ status.name

theorem attend_cases :
    (u.Failed ∧ u.attend answers =
      (u.handleCommandError "upload" (failureMessage u.host.sessionStatus),
        [.raises "upload" u.commands u.failLabel])) ∨
    ¬u.Failed ∧ u.Keeps (u.attend answers).1 ∧ OnlySends (u.attend answers).2 := by
  unfold attend Failed
  cases status : u.host.sessionStatus with
  | notStarted =>
    refine .inr ⟨by decide, ?_⟩
    dsimp only
    split
    · exact retry_keeps
    · exact ⟨⟨rfl, rfl, rfl⟩, OnlySends.nil⟩
  | initializing | finalizing => exact .inr ⟨by decide, ⟨rfl, rfl, rfl⟩, OnlySends.nil⟩
  | ready | inProgress =>
    refine .inr ⟨by decide, ?_⟩
    dsimp only
    split
    · exact ⟨⟨rfl, rfl, rfl⟩, (act_keeps _).2⟩
    · exact ⟨⟨rfl, rfl, rfl⟩, OnlySends.nil⟩
  | finished =>
    refine .inr ⟨by decide, ?_⟩
    dsimp only
    split
    · exact ⟨⟨rfl, rfl, rfl⟩, OnlySends.nil⟩
    · exact ⟨⟨rfl, rfl, rfl⟩, OnlySends.nil⟩
  | errMaxChunkSize =>
    refine .inr ⟨by decide, ?_⟩
    dsimp only
    split
    · exact ⟨⟨rfl, rfl, rfl⟩, OnlySends.nil⟩
    · exact ⟨⟨rfl, rfl, rfl⟩, (act_keeps _).2⟩
  | _ => exact .inl ⟨by decide, rfl⟩

theorem processMessage_keeps (payload : Payload) :
    u.Keeps (u.processMessage answers payload).1 ∧
      OnlySends (u.processMessage answers payload).2 := by
  unfold processMessage
  split
  · exact ⟨⟨rfl, rfl, rfl⟩, OnlySends.nil⟩
  refine ⟨?_, (act_keeps _).2⟩
  cases payload.message with
  | reqResendChunk sessionId chunkId reason =>
    dsimp only
    split
    · exact ⟨rfl, rfl, rfl⟩
    · exact ⟨rfl, rfl, rfl⟩
  | versionInfoResp resTarget info =>
    dsimp only
    unfold handleVersionResponse
    split
    · exact ⟨rfl, rfl, rfl⟩
    · exact ⟨rfl, rfl, rfl⟩
  | _ => exact ⟨rfl, rfl, rfl⟩

theorem Keeps.trans {u v w : Updater} (first : u.Keeps v) (second : v.Keeps w) : u.Keeps w :=
  ⟨second.commands.trans first.commands, second.failLabel.trans first.failLabel,
    second.stepErrors.trans first.stepErrors⟩

theorem conclude_keeps : u.Keeps (u.conclude answers) := by
  have expired : u.Keeps (u.expire answers) := by
    unfold expire
    split
    · exact ⟨rfl, rfl, rfl⟩
    · exact ⟨rfl, rfl, rfl⟩
  refine expired.trans ?_
  show (u.expire answers).Keeps (u.expire answers).closeSource
  unfold closeSource
  split
  · exact ⟨rfl, rfl, rfl⟩
  · exact ⟨rfl, rfl, rfl⟩

/-- A session that has not started does not time out. -/
theorem Idle.conclude (idle : u.Idle) : (u.conclude answers).Idle := by
  obtain ⟨status, pending⟩ := idle
  have alive : u.expire answers = u := by
    unfold expire
    rw [if_neg]
    rintro ⟨-, waiting⟩
    simp [Waiting, status, pending, UpdateStatus.value] at waiting
  unfold Updater.conclude closeSource
  rw [alive]
  split
  · exact ⟨status, pending⟩
  · exact ⟨status, pending⟩

/-- A session that has failed stays so, if only for another reason. -/
theorem Failed.conclude (failed : u.Failed) : (u.conclude answers).Failed := by
  have expired : (u.expire answers).Failed := by
    unfold expire
    split
    · exact (by decide : UpdateStatus.errTimeout.value < 0 ∧ UpdateStatus.errTimeout ≠ .errMaxChunkSize)
    · exact failed
  unfold Updater.conclude closeSource
  split
  · exact expired
  · exact expired

theorem Failed.not_idle (failed : u.Failed) : ¬u.Idle := by
  rintro ⟨status, -⟩
  exact absurd failed.1 (by rw [status]; decide)

/-- While the session is idle and there is no pause, a step runs the command at the front. -/
theorem step_of_idle {cmd : String} {rest : List String} (idle : u.Idle)
    (queued : u.commands = cmd :: rest) (awake : ¬u.Paused answers) :
    u.step answers = ((u.resume.runCommand answers cmd).1.conclude answers,
      (u.resume.runCommand answers cmd).2) := by
  unfold step
  rw [queued]
  dsimp only
  rw [if_pos idle, if_neg awake]

/-- A pause of an idle session changes nothing. -/
theorem step_of_paused {cmd : String} {rest : List String} (idle : u.Idle)
    (queued : u.commands = cmd :: rest) (paused : u.Paused answers) : u.step answers = (u, []) := by
  unfold step
  rw [queued]
  dsimp only
  rw [if_pos idle, if_pos paused]

theorem step_of_empty (empty : u.commands = []) :
    u.step answers = ((u.attend answers).1.conclude answers, (u.attend answers).2) := by
  unfold step
  rw [empty]

theorem step_of_not_idle (busy : ¬u.Idle) :
    u.step answers = ((u.attend answers).1.conclude answers, (u.attend answers).2) := by
  unfold step
  split
  · rw [if_neg busy]
  · rfl

theorem runCommand_executes {cmd : String} :
    ∃ events, (u.runCommand answers cmd).2 = .executes cmd :: events := by
  unfold runCommand
  split
  · exact ⟨_, rfl⟩
  · exact ⟨_, rfl⟩

/-! ### Errors -/

private theorem skipToLabel_frame :
    u.skipToLabel.host = u.host ∧ u.skipToLabel.requestPending = u.requestPending ∧
      u.skipToLabel.failLabel = u.failLabel ∧ u.skipToLabel.stepErrors = u.stepErrors := by
  unfold skipToLabel
  split
  · exact ⟨rfl, rfl, rfl, rfl⟩
  · exact ⟨rfl, rfl, rfl, rfl⟩

private theorem resetSession_frame :
    u.Keeps u.resetSession ∧ u.resetSession.activeStep = u.activeStep := by
  unfold resetSession
  split
  · exact ⟨⟨rfl, rfl, rfl⟩, rfl⟩
  · exact ⟨⟨rfl, rfl, rfl⟩, rfl⟩

theorem handleCommandError_failLabel (cmd message : String) :
    (u.handleCommandError cmd message).failLabel = u.failLabel :=
  skipToLabel_frame.2.2.1.trans resetSession_frame.1.failLabel

theorem handleCommandError_commands (labelled : u.failLabel ≠ "") (cmd message : String) :
    (u.handleCommandError cmd message).commands = u.commands.dropWhile (· ≠ u.failLabel) := by
  have commands : (u.resetSession.enterError cmd message).commands = u.commands :=
    resetSession_frame.1.commands
  have failLabel : (u.resetSession.enterError cmd message).failLabel = u.failLabel :=
    resetSession_frame.1.failLabel
  unfold handleCommandError skipToLabel
  rw [commands, failLabel, if_neg labelled]

theorem handleCommandError_idle (remain : u.commands ≠ []) (cmd message : String) :
    (u.handleCommandError cmd message).Idle := by
  have reset : (u.resetSession.enterError cmd message).Idle := by
    unfold resetSession
    rw [if_neg remain]
    exact ⟨rfl, rfl⟩
  obtain ⟨host, pending, -, -⟩ := @skipToLabel_frame (u.resetSession.enterError cmd message)
  unfold handleCommandError Idle
  rwa [host, pending]

/-- Without commands the session is left as it is. -/
theorem handleCommandError_host (empty : u.commands = []) (cmd message : String) :
    (u.handleCommandError cmd message).host = u.host := by
  have same : u.resetSession = u := by
    unfold resetSession
    rw [if_pos empty]
  unfold handleCommandError
  rw [skipToLabel_frame.1, same]
  rfl

theorem handleCommandError_stepErrors (cmd message : String) :
    (u.handleCommandError cmd message).stepErrors =
      u.stepErrors ++ [u.errorEntry cmd message] := by
  obtain ⟨⟨-, -, stepErrors⟩, activeStep⟩ := @resetSession_frame u
  obtain ⟨-, -, -, kept⟩ := @skipToLabel_frame (u.resetSession.enterError cmd message)
  unfold handleCommandError
  rw [kept]
  unfold enterError errorEntry
  rw [stepErrors, activeStep]

end Updater

end InertialSense.FirmwareUpdate
