import Halo.Base.Bytes
import Halo.Base.Trace

/-!
# The logger (`logger/logger.go`)

A call fills in a `LogInfo` and puts it into a channel. `doLog` takes the `LogInfo`s out, formats
and writes each one, and gives it back to a pool, from which later calls get theirs (`sync.Pool`
returns any of its elements, or a new one). A call assigns some of the fields only: what it does not
assign is what an earlier call has left.

* `parseLogFlag`: the flags in front of a message.
* `formatLog`, `raw`, `fill`: what a call makes of the `LogInfo` that it gets.
* `logData`: the bytes that `doLog` writes for a `LogInfo`.
* `step`: calls, and `doLog` with the next element of the channel.

The formatting of parameters (`fmt.Appendf`, `json.Marshal`) and of times, the place of a call in
the source and the numbers of its goroutine and thread are parameters. The bytes go to `writeLog`
together with the tag of the record; the files behind it are not modelled. A call is one step, taken
when its `LogInfo` enters the channel: what the call got from the pool before that is still there to
be chosen, since no other call can have got it. The buffer of a message is emptied by `getBuf` and
assigned by every call, so a message is a value here.
-/

namespace Halo.Logger

/-- The levels of `Debug`, `Info`, `Warn` and `Error`. -/
inductive Level where
  | debug
  | info
  | warn
  | error
  deriving DecidableEq

/-- The value of a level. -/
def Level.value : Level → Int
  | .debug => 0
  | .info => 1
  | .warn => 2
  | .error => 3

/-- The bytes of a text. -/
def text (s : String) : Bytes := s.toList.map fun c => UInt8.ofNat c.toNat

/-- `levelMap`. -/
def Level.name : Level → Bytes
  | .debug => text "DEBUG"
  | .info => text "INFO "
  | .warn => text "WARN "
  | .error => text "ERROR"

/-- The escape sequence of a colour. -/
def color (n : UInt8) : Bytes := [27, 91, 51, n, 109]

def red : Bytes := color 49
def green : Bytes := color 50
def yellow : Bytes := color 51
def blue : Bytes := color 52
def magenta : Bytes := color 53
def cyan : Bytes := color 54
def reset : Bytes := [27, 91, 48, 109]

/-- The colour of a level. -/
def Level.color : Level → Bytes
  | .debug => blue
  | .info => green
  | .warn => yellow
  | .error => red

/-- The part of `Config` that decides what a record looks like. -/
structure Config where
  level : Int
  trackLine : Bool
  trackThread : Bool
  disableColor : Bool
  enableJson : Bool
  fullPath : Bool

/-- `LogInfo`; the message is what the buffer has in it. -/
structure LogInfo where
  time : Nat
  level : Level
  msg : Bytes
  raw : Bool
  fileName : Bytes
  funcName : Bytes
  line : Int
  goroutineId : Bytes
  threadId : Bytes
  trackLine : Bool
  trackThread : Bool
  tag : Bytes

/-- `new(LogInfo)`. -/
def LogInfo.zero : LogInfo where
  time := 0
  level := .debug
  msg := []
  raw := false
  fileName := []
  funcName := []
  line := 0
  goroutineId := []
  threadId := []
  trackLine := false
  trackThread := false
  tag := []

/-! ## Flags -/

/-- `LogFlag`. -/
structure LogFlag where
  logTag : Bytes
  logJson : Bytes
  logLine : Bytes
  logThread : Bytes

/-- `LogFlag{}`. -/
def LogFlag.zero : LogFlag := ⟨[], [], [], []⟩

/-- `FieldByName` and `SetString`. -/
def LogFlag.setField (logFlag : LogFlag) (name value : Bytes) : Option LogFlag :=
  if name = text "LogTag" then some { logFlag with logTag := value }
  else if name = text "LogJson" then some { logFlag with logJson := value }
  else if name = text "LogLine" then some { logFlag with logLine := value }
  else if name = text "LogThread" then some { logFlag with logThread := value }
  else none

/-- Where the loops of `parseLogFlag` are: between two flags, behind an `@`, or behind an opening
bracket. -/
inductive Scan where
  | outside
  | name (name : Bytes)
  | value (name value : Bytes)

/-- The loops of `parseLogFlag` over the rest of a message: the text behind the bar and the flags,
or nothing for a message without them. -/
def scan (logFlag : LogFlag) : Scan → Bytes → Option (Bytes × LogFlag)
  | _, [] => none
  | .outside, c :: msg =>
    if c = 124 then some (msg, logFlag)
    else if c = 64 then scan logFlag (.name []) msg
    else scan logFlag .outside msg
  | .name name, c :: msg =>
    if c = 40 then scan logFlag (.value name []) msg else scan logFlag (.name (name ++ [c])) msg
  | .value name value, c :: msg =>
    if c = 41 then
      match logFlag.setField name value with
      | none => none
      | some logFlag => scan logFlag .outside msg
    else scan logFlag (.value name (value ++ [c])) msg

/-- `parseLogFlag`. -/
def parseLogFlag (msg : Bytes) : Bytes × LogFlag :=
  if msg.head? = some 64 then (scan .zero .outside msg).getD (msg, .zero) else (msg, .zero)

/-! ## Calls -/

/-- A place in the source (`runtime.Caller`). -/
structure Caller where
  file : Bytes
  line : Int
  func : Bytes

/-- What a call reads of its surroundings: the time, its place if it is known, and its goroutine and
thread. -/
structure Site where
  time : Nat
  caller : Option Caller
  goroutineId : Bytes
  threadId : Bytes

/-- The functions of other packages, for parameters of the type `α`. -/
structure Env (α : Type) where
  /-- `json.Marshal` -/
  marshal : α → Bytes
  /-- `fmt.Appendf` to an empty buffer; a parameter is an object or a text -/
  appendf : Bytes → List (α ⊕ Bytes) → Bytes
  /-- `Time.AppendFormat` -/
  formatTime : Nat → Bytes

/-- The text behind the last slash. -/
def lastPart (s : Bytes) : Bytes := (s.reverse.takeWhile fun c => c ≠ 47).reverse

/-- `path.Base`. -/
def base (s : Bytes) : Bytes :=
  if s = [] then text "."
  else
    let trimmed := (s.reverse.dropWhile fun c => c = 47).reverse
    if trimmed = [] then text "/" else lastPart trimmed

/-- `getLineFunc`: the file, the line and the function. -/
def getLineFunc (fullPath : Bool) : Option Caller → Bytes × Int × Bytes
  | none => (text "???", -1, text "???")
  | some c => (if fullPath then c.file else base c.file, c.line, lastPart c.func)

/-- A call. -/
inductive Call (α : Type) where
  /-- `Debug`, `Info`, `Warn`, `Error` -/
  | log (level : Level) (msg : Bytes) (param : List α)
  | print (param : List α)
  | raw (data : Bytes)

/-- The message that `Print` makes for `n` parameters. -/
def printMsg : Nat → Bytes
  | 0 => []
  | 1 => text "%v"
  | n + 2 => text "%v " ++ printMsg (n + 1)

variable {α : Type} (env : Env α) (cfg : Config)

/-- A call of a level below that of the configuration returns at once. -/
def Call.enabled : Call α → Bool
  | .log level _ _ => !decide (cfg.level > level.value)
  | .print _ | .raw _ => true

/-- Whether a call with these flags notes its place. -/
def tracksLine (logFlag : LogFlag) : Bool := cfg.trackLine || decide (logFlag.logLine = text "true")

/-- Whether a call with these flags notes its goroutine and thread. -/
def tracksThread (logFlag : LogFlag) : Bool :=
  cfg.trackThread || decide (logFlag.logThread = text "true")

/-- The parameters, as texts if the flags say so. -/
def params (logFlag : LogFlag) (param : List α) : List (α ⊕ Bytes) :=
  if cfg.enableJson || decide (logFlag.logJson = text "true") then
    param.map fun obj => .inr (env.marshal obj)
  else param.map .inl

/-- `formatLog`, with the `LogInfo` of the pool. -/
def formatLog (site : Site) (level : Level) (msg : Bytes) (param : List α) (logInfo : LogInfo) :
    LogInfo :=
  let (newMsg, logFlag) := parseLogFlag msg
  let logInfo := { logInfo with
    time := site.time
    level := level
    msg := env.appendf newMsg (params env cfg logFlag param)
    raw := false }
  let logInfo :=
    if tracksLine cfg logFlag then
      let (fileName, line, funcName) := getLineFunc cfg.fullPath site.caller
      { logInfo with fileName, line, funcName, trackLine := true }
    else logInfo
  let logInfo :=
    if tracksThread cfg logFlag then
      { logInfo with
        goroutineId := site.goroutineId, threadId := site.threadId, trackThread := true }
    else logInfo
  { logInfo with tag := logFlag.logTag }

/-- `Raw`, with the `LogInfo` of the pool. -/
def raw (site : Site) (data : Bytes) (logInfo : LogInfo) : LogInfo :=
  { logInfo with time := site.time, msg := data, raw := true }

/-- What a call makes of the `LogInfo` of the pool. -/
def fill (site : Site) : Call α → LogInfo → LogInfo
  | .log level msg param => formatLog env cfg site level msg param
  | .print param => formatLog env cfg site .debug (printMsg param.length) param
  | .raw data => Logger.raw site data

/-! ## `doLog` -/

/-- `strconv.Itoa`. -/
def itoa (n : Int) : Bytes :=
  let digits := (Nat.toDigits 10 n.natAbs).map fun c => UInt8.ofNat c.toNat
  if n < 0 then 45 :: digits else digits

/-- A colour, unless there are none. -/
def colored (c : Bytes) : Bytes := if cfg.disableColor then [] else c

/-- The time, the level and the message. -/
def head (logInfo : LogInfo) : Bytes :=
  colored cfg cyan ++ text "[" ++ env.formatTime logInfo.time ++ text "]" ++ colored cfg reset ++
    text " " ++
    colored cfg logInfo.level.color ++ text "[" ++ logInfo.level.name ++ text "]" ++
      colored cfg reset ++ text " " ++
    if logInfo.level = .error then colored cfg red ++ logInfo.msg ++ colored cfg reset
    else logInfo.msg

/-- The goroutine and the thread. -/
def thread (logInfo : LogInfo) : Bytes :=
  if logInfo.trackThread then
    text " goroutine:" ++ logInfo.goroutineId ++ text " thread:" ++ logInfo.threadId
  else []

/-- The place of the call. -/
def place (logInfo : LogInfo) : Bytes :=
  if logInfo.trackLine then
    text " " ++ colored cfg magenta ++ text "[ " ++ logInfo.fileName ++ text ":" ++
      itoa logInfo.line ++ text " " ++
      logInfo.funcName ++ text "()" ++ thread logInfo ++ text " ]" ++ colored cfg reset
  else []

/-- The bytes of a record. -/
def logData (logInfo : LogInfo) : Bytes :=
  if logInfo.raw then logInfo.msg else head env cfg logInfo ++ place cfg logInfo ++ text "\n"

/-- The bytes of a record and its tag, from the call and the `LogInfo` of the pool. -/
def record (site : Site) (call : Call α) (logInfo : LogInfo) : Bytes × Bytes :=
  (logData env cfg (fill env cfg site call logInfo), (fill env cfg site call logInfo).tag)

/-- An element of the channel, with the call that has made it and the `LogInfo` that this call
got. -/
structure Pending (α : Type) where
  logInfo : LogInfo
  site : Site
  call : Call α
  recycled : LogInfo

/-- A record that is written. -/
structure Written (α : Type) where
  data : Bytes
  tag : Bytes
  site : Site
  call : Call α
  recycled : LogInfo

/-- The pool and the channel. -/
structure State (α : Type) where
  pool : List LogInfo
  channel : List (Pending α)

/-- A logger that `InitLogger` has just started. The pool is one for all loggers, so earlier ones
may have filled it. -/
def State.new (pool : List LogInfo) : State α := ⟨pool, []⟩

/-- `logInfoPool.Get`: the element that is chosen, or a new one. -/
def State.get (s : State α) (choice : Option Nat) : LogInfo × List LogInfo :=
  match choice with
  | none => (.zero, s.pool)
  | some i =>
    match s.pool[i]? with
    | none => (.zero, s.pool)
    | some logInfo => (logInfo, s.pool.eraseIdx i)

/-- What happens next. -/
inductive Event (α : Type) where
  /-- A call, and what the pool hands out. -/
  | call (site : Site) (call : Call α) (choice : Option Nat)
  /-- `doLog` takes the next element of the channel. -/
  | write

/-- One step. -/
def step (s : State α) : Event α → State α × List (Written α)
  | .call site call choice =>
    if call.enabled cfg then
      let (recycled, pool) := s.get choice
      (⟨pool, s.channel ++ [⟨fill env cfg site call recycled, site, call, recycled⟩]⟩, [])
    else (s, [])
  | .write =>
    match s.channel with
    | [] => (s, [])
    | p :: channel =>
      (⟨s.pool ++ [p.logInfo], channel⟩,
        [⟨logData env cfg p.logInfo, p.logInfo.tag, p.site, p.call, p.recycled⟩])

end Halo.Logger
