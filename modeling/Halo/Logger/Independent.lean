import Halo.Logger.Logger

/-!
# What a record takes over from earlier calls

A call gets a `LogInfo` from the pool and assigns some of its fields. The record that is written is
that of a new `LogInfo` if the fields that `doLog` reads and the call leaves alone are zero.

* `record_eq_iff`: which `LogInfo`s give the record of a new one, for a call.
* `step_filled`: the channel has what the calls made of the `LogInfo`s that they got.
* `record_independent_iff`: in every run, which records are those of a new `LogInfo`.
-/

namespace Halo.Logger

variable {α : Type} {env : Env α} {cfg : Config} {site : Site}

/-- The flags of a call; `Raw` has none. -/
def Call.flags : Call α → Option LogFlag
  | .log _ msg _ => some (parseLogFlag msg).2
  | .print param => some (parseLogFlag (printMsg param.length)).2
  | .raw _ => none

/-- A `LogInfo` that serves a call with these flags as well as a new one. A call that notes its
place shows the thread that an earlier call has noted, unless it notes its own; a call that does not
shows the place of an earlier call. -/
def LogInfo.ServesFlags (cfg : Config) (logInfo : LogInfo) (logFlag : LogFlag) : Prop :=
  if tracksLine cfg logFlag then tracksThread cfg logFlag ∨ logInfo.trackThread = false
  else logInfo.trackLine = false

/-- A `LogInfo` that serves a call as well as a new one. `Raw` leaves the tag alone. -/
def LogInfo.Serves (cfg : Config) (logInfo : LogInfo) (call : Call α) : Prop :=
  match call.flags with
  | none => logInfo.tag = []
  | some logFlag => logInfo.ServesFlags cfg logFlag

/-! ## One record -/

section

variable (level : Level) (msg : Bytes) (param : List α) (logInfo : LogInfo)

@[simp] theorem formatLog_raw : (formatLog env cfg site level msg param logInfo).raw = false := by
  simp only [formatLog]
  split <;> split <;> rfl

@[simp] theorem formatLog_tag :
    (formatLog env cfg site level msg param logInfo).tag = (parseLogFlag msg).2.logTag := rfl

@[simp] theorem formatLog_trackLine :
    (formatLog env cfg site level msg param logInfo).trackLine =
      (tracksLine cfg (parseLogFlag msg).2 || logInfo.trackLine) := by
  simp only [formatLog]
  split <;> split <;> simp_all

@[simp] theorem formatLog_trackThread :
    (formatLog env cfg site level msg param logInfo).trackThread =
      (tracksThread cfg (parseLogFlag msg).2 || logInfo.trackThread) := by
  simp only [formatLog]
  split <;> split <;> simp_all

/-- The time, the level and the message are assigned by every call. -/
theorem head_formatLog : head env cfg (formatLog env cfg site level msg param logInfo) =
    head env cfg (formatLog env cfg site level msg param .zero) := by
  simp only [formatLog]
  split <;> split <;> rfl

end

theorem thread_eq_nil_iff (logInfo : LogInfo) :
    thread logInfo = [] ↔ logInfo.trackThread = false := by
  rw [thread]
  split <;> simp_all [text]

theorem place_eq_nil_iff (logInfo : LogInfo) :
    place cfg logInfo = [] ↔ logInfo.trackLine = false := by
  rw [place]
  split <;> simp_all [text]

/-- The place of a call that notes it is that of a new `LogInfo` if the thread is. -/
theorem place_formatLog_eq_iff (level : Level) (msg : Bytes) (param : List α) (logInfo : LogInfo)
    (hline : tracksLine cfg (parseLogFlag msg).2 = true) :
    place cfg (formatLog env cfg site level msg param logInfo) =
        place cfg (formatLog env cfg site level msg param .zero) ↔
      thread (formatLog env cfg site level msg param logInfo) =
        thread (formatLog env cfg site level msg param .zero) := by
  have hfields : ∀ i : LogInfo,
      place cfg (formatLog env cfg site level msg param i) =
        text " " ++ colored cfg magenta ++ text "[ " ++ (getLineFunc cfg.fullPath site.caller).1 ++
          text ":" ++ itoa (getLineFunc cfg.fullPath site.caller).2.1 ++ text " " ++
          (getLineFunc cfg.fullPath site.caller).2.2 ++ text "()" ++
          thread (formatLog env cfg site level msg param i) ++ text " ]" ++ colored cfg reset := by
    intro i
    rw [place, formatLog_trackLine, hline, Bool.true_or, if_pos rfl]
    simp only [formatLog, hline, if_true]
    split <;> rfl
  rw [hfields, hfields, List.append_left_inj, List.append_left_inj, List.append_right_inj]

/-- The thread is that of a new `LogInfo` if the call notes it, or no earlier call has. -/
theorem thread_formatLog_eq_iff (level : Level) (msg : Bytes) (param : List α) (logInfo : LogInfo) :
    thread (formatLog env cfg site level msg param logInfo) =
        thread (formatLog env cfg site level msg param .zero) ↔
      tracksThread cfg (parseLogFlag msg).2 = true ∨ logInfo.trackThread = false := by
  by_cases hthread : tracksThread cfg (parseLogFlag msg).2 = true
  · refine iff_of_true ?_ (.inl hthread)
    simp only [formatLog, hthread, if_true]
    split <;> rfl
  · have hzero : thread (formatLog env cfg site level msg param .zero) = [] := by
      simp [thread_eq_nil_iff, hthread, LogInfo.zero]
    simp [hzero, thread_eq_nil_iff, hthread]

/-- The records of a call with a message. -/
theorem logData_formatLog_eq_iff (level : Level) (msg : Bytes) (param : List α)
    (logInfo : LogInfo) :
    logData env cfg (formatLog env cfg site level msg param logInfo) =
        logData env cfg (formatLog env cfg site level msg param .zero) ↔
      logInfo.ServesFlags cfg (parseLogFlag msg).2 := by
  have hplace : logData env cfg (formatLog env cfg site level msg param logInfo) =
        logData env cfg (formatLog env cfg site level msg param .zero) ↔
      place cfg (formatLog env cfg site level msg param logInfo) =
        place cfg (formatLog env cfg site level msg param .zero) := by
    rw [logData, logData, formatLog_raw, formatLog_raw, head_formatLog]
    simp
  rw [hplace, LogInfo.ServesFlags]
  split
  next hline => rw [place_formatLog_eq_iff level msg param logInfo hline, thread_formatLog_eq_iff]
  next hline =>
    have hzero : place cfg (formatLog env cfg site level msg param .zero) = [] := by
      simp [place_eq_nil_iff, hline, LogInfo.zero]
    simp [hzero, place_eq_nil_iff, hline]

/-- Which `LogInfo`s give the record of a new one. -/
theorem record_eq_iff (call : Call α) (logInfo : LogInfo) :
    record env cfg site call logInfo = record env cfg site call .zero ↔
      logInfo.Serves cfg call := by
  rw [record, record, Prod.mk.injEq]
  cases call with
  | raw data => simp [fill, raw, logData, LogInfo.Serves, Call.flags, LogInfo.zero]
  | _ => simp [fill, logData_formatLog_eq_iff, LogInfo.Serves, Call.flags]

/-! ## Runs -/

/-- The channel has what the calls made of the `LogInfo`s that they got. -/
def Filled (env : Env α) (cfg : Config) (s : State α) : Prop :=
  ∀ p ∈ s.channel, p.logInfo = fill env cfg p.site p.call p.recycled

/-- The record is that of the call and the `LogInfo` that it got. -/
def Written.FromCall (env : Env α) (cfg : Config) (w : Written α) : Prop :=
  (w.data, w.tag) = record env cfg w.site w.call w.recycled

theorem step_filled (s : State α) (e : Event α) (hs : Filled env cfg s) :
    Filled env cfg (step env cfg s e).1 ∧ ∀ w ∈ (step env cfg s e).2, w.FromCall env cfg := by
  cases e with
  | call site call choice =>
    rw [step]
    split
    · refine ⟨fun p hp => ?_, List.forall_mem_nil _⟩
      obtain hp | hp := List.mem_append.mp hp
      · exact hs p hp
      · rw [List.mem_singleton.mp hp]
    · exact ⟨hs, List.forall_mem_nil _⟩
  | write =>
    rw [step]
    split
    · exact ⟨hs, List.forall_mem_nil _⟩
    · next p channel hchannel =>
      rw [Filled, hchannel, List.forall_mem_cons] at hs
      refine ⟨hs.2, fun w hw => ?_⟩
      rw [List.mem_singleton.mp hw, Written.FromCall, record, hs.1]

theorem written_fromCall (pool : List LogInfo) (es : List (Event α)) :
    ∀ r ∈ trace (step env cfg) (.new pool) es, ∀ w ∈ r.out, w.FromCall env cfg := by
  refine outputs_of_invariant (I := Filled env cfg) (E := fun _ => True) ?_ ?_ ?_
  · intro s e hs _
    exact step_filled s e hs
  · exact List.forall_mem_nil _
  · exact fun _ _ => trivial

/-- In every run a record is written with the bytes and the tag of a new `LogInfo` if and only if
the `LogInfo` that its call got from the pool serves that call. -/
theorem record_independent_iff (env : Env α) (cfg : Config) (pool : List LogInfo)
    (es : List (Event α)) :
    ∀ r ∈ trace (step env cfg) (.new pool) es, ∀ w ∈ r.out,
      (w.data, w.tag) = record env cfg w.site w.call .zero ↔ w.recycled.Serves cfg w.call := by
  intro r hr w hw
  rw [written_fromCall pool es r hr w hw, record_eq_iff]

/-- A configuration without places, threads and colours. -/
def bareConfig : Config := ⟨0, false, false, true, false, false⟩

/-- Parameters are ignored. -/
def bareEnv : Env Unit := ⟨fun _ => [], fun msg _ => msg, fun _ => text "now"⟩

def mainSite : Site := ⟨0, some ⟨text "main.go", 7, text "main.main"⟩, text "1", text "2"⟩

/-- A message with flags, then raw data, then a plain message, each with the `LogInfo` of the one
before. -/
def recycledCalls : List (Event Unit) :=
  [.call mainSite (.log .info (text "@LogLine(true)@LogTag(net)|up") []) none, .write,
    .call mainSite (.raw (text "data")) (some 0), .write,
    .call mainSite (.log .info (text "idle") []) (some 0), .write]

/-- The raw data goes to the file `net`, and the plain message is written with a place. -/
example : (trace (step bareEnv bareConfig) (.new []) recycledCalls).flatMap
      (fun r => r.out.map fun w => (w.data, w.tag)) =
    [(text "[now] [INFO ] up [ main.go:7 main.main() ]\n", text "net"), (text "data", text "net"),
      (text "[now] [INFO ] idle [ main.go:7 main.main() ]\n", [])] := by
  decide +kernel

theorem record_independent_iff_recycledCalls :
    (trace (step bareEnv bareConfig) (.new []) recycledCalls).flatMap (fun r => r.out) ≠ [] ∧
    ∀ r ∈ trace (step bareEnv bareConfig) (.new []) recycledCalls, ∀ w ∈ r.out,
      (w.data, w.tag) = record bareEnv bareConfig w.site w.call .zero ↔
        w.recycled.Serves bareConfig w.call :=
  ⟨fun h => absurd (congrArg List.length h) (by decide +kernel),
    record_independent_iff bareEnv bareConfig [] recycledCalls⟩

/-- The records of raw data and of a plain message depend on the call before. -/
theorem stale_fields_written : ¬ ∀ r ∈ trace (step bareEnv bareConfig)
    (.new []) recycledCalls, ∀ w ∈ r.out, (w.data, w.tag) =
      record bareEnv bareConfig w.site w.call .zero := by
  decide +kernel

end Halo.Logger
