import Halo.Base.BinHeap
import Halo.Base.Slice

/-!
# The timed scheduler

`TimedSched` runs functions at their deadlines. `Put` appends a task under a lock and notifies the
`prepend` goroutine, which swaps the slice of the tasks with its own and hands them over to the
`sched` workers; each of these has a heap of tasks and a timer. An event is one step of one
goroutine, a timer that fires, or time that passes, and a run is any list of them.

* `Timer`: a Go timer with its channel, before Go 1.23 (`async`) or since.
* `TaskPlace`, `tasksAt`: where a task can be. `Accounted`: the tasks that were put are those in all
  places together.
* `SchedWorker.Inv`: the timer of a worker against its place in the code.
* `timedSched_loses_nothing`: every task is in exactly one place, none runs twice or early, and
  waiting tasks have a notification on its way; a worker that waits has its timer set in time where
  every reset happens at the time that it is computed from or comes too late in any case.
-/

namespace Halo

/-- A task: the `Put` that it comes from and its deadline. -/
structure TimedFunc where
  put : Nat
  ts : Nat
  deriving DecidableEq

/-! ## Timers -/

/-- A timer with the channel `C`. -/
structure Timer where
  /-- The time that the timer is armed for. -/
  due : Option Nat
  c : Option Nat
  deriving DecidableEq

namespace Timer

variable (async : Bool)

/-- `Timer.Stop`. Since Go 1.23 it takes back a time that has not been received. -/
def stop (t : Timer) : Timer × Bool :=
  if async then ({ t with due := none }, t.due.isSome)
  else (⟨none, none⟩, t.due.isSome || t.c.isSome)

/-- `Timer.Reset`. A negative duration arms the timer for the present. -/
def reset (t : Timer) (clock : Nat) (d : Int) : Timer :=
  ⟨some (clock + d.toNat), if async then t.c else none⟩

/-- The timer fires with the time `now`. -/
def fire (t : Timer) (clock now : Nat) : Timer :=
  match t.due with
  | none => t
  | some due => if due ≤ now ∧ now ≤ clock then ⟨none, some (t.c.getD now)⟩ else t

end Timer

/-! ## Workers -/

/-- Where a worker is in `sched`. -/
inductive SchedPc where
  | select
  /-- `task := <-ts.chTask` -/
  | received (task : TimedFunc)
  /-- `now := time.Now()` -/
  | compare (task : TimedFunc) (now : Nat)
  /-- The task is in the heap. -/
  | stop (now : Nat)
  /-- `<-timer.C` -/
  | drain (now : Nat)
  /-- `timer.Reset(tasks[0].ts.Sub(now))` -/
  | reset (now : Nat)
  /-- The loop after `now := <-timer.C`. -/
  | loop (now : Nat)
  /-- A task runs; the loop goes on afterwards where `next` has its time. -/
  | execute (next : Option Nat)
  /-- `tasks[0]` of an empty heap. -/
  | panicked
  | returned
  deriving DecidableEq

/-- A `sched` goroutine. -/
structure SchedWorker where
  tasks : List TimedFunc
  timer : Timer
  drained : Bool
  pc : SchedPc
  deriving DecidableEq

/-- `timedFuncHeap.Less`. -/
def timedFuncLess (a b : TimedFunc) : Bool := a.ts < b.ts

/-- The next step of a worker by itself, and the task that it begins to execute. -/
def SchedWorker.step (async : Bool) (w : SchedWorker) (clock : Nat) :
    SchedWorker × Option TimedFunc :=
  match w.pc with
  | .select | .panicked | .returned => (w, none)
  | .received task => ({ w with pc := .compare task clock }, none)
  | .compare task now =>
    if task.ts < now then ({ w with pc := .execute none }, some task)
    else ({ w with tasks := BinHeap.push timedFuncLess w.tasks task, pc := .stop now }, none)
  | .stop now =>
    let (timer, stopped) := w.timer.stop async
    ({ w with timer, pc := if !stopped && !w.drained then .drain now else .reset now }, none)
  | .drain now =>
    if w.timer.c.isSome then
      ({ w with timer := { w.timer with c := none }, pc := .reset now }, none)
    else (w, none)
  | .reset now =>
    match w.tasks.head? with
    | none => ({ w with pc := .panicked }, none)
    | some first => ({ w with
        timer := w.timer.reset async clock (first.ts - now)
        drained := false
        pc := .select }, none)
  | .loop now =>
    match w.tasks.head? with
    | none => ({ w with pc := .select }, none)
    | some first =>
      if first.ts < now then
        match BinHeap.pop timedFuncLess w.tasks with
        | none => ({ w with pc := .panicked }, none)
        | some (task, tasks) => ({ w with tasks, pc := .execute (some now) }, some task)
      else ({ w with pc := .reset now }, none)
  | .execute none => ({ w with pc := .select }, none)
  | .execute (some now) => ({ w with pc := .loop now }, none)

/-! ## The scheduler -/

/-- Where the `prepend` goroutine is. -/
inductive PrependPc where
  | select
  /-- A notification has been received. -/
  | swap
  /-- `ts.chTask <- tasks[k]`, or the end of the loop. -/
  | send (k : Nat)
  /-- `tasks[k] = timedFunc{}` -/
  | clear (k : Nat)
  /-- It has returned with the tasks from `k` on in its hands. -/
  | returned (k : Nat)
  deriving DecidableEq

/-- The index of the first task that has not been handed over. -/
def PrependPc.next : PrependPc → Nat
  | .select | .swap => 0
  | .send k | .returned k => k
  | .clear k => k + 1

/-- The scheduler with `n` workers. -/
structure TimedSched (n : Nat) where
  clock : Nat
  arrays : Arrays TimedFunc
  prependTasks : Slice
  chPrependNotify : Bool
  /-- The calls of `Put` that have appended and not yet notified. -/
  notifying : List Nat
  die : Bool
  prependPc : PrependPc
  /-- The slice of `prepend`. -/
  tasks : Slice
  workers : Fin n → SchedWorker
  /-- The tasks put so far. -/
  put : List TimedFunc
  /-- The tasks executed so far, and when. -/
  executed : List (TimedFunc × Nat)

/-- One step of one goroutine, or of the environment. -/
inductive SchedEvent (n : Nat) where
  | tick (d : Nat)
  /-- The append of `Put`, under the lock. -/
  | put (ts spare : Nat)
  /-- The notification of a `Put`. -/
  | notify (put : Nat)
  /-- `Close` -/
  | close
  /-- A step of `prepend` by itself. -/
  | prepend
  /-- `prepend` hands a task over to a worker. -/
  | handOver (i : Fin n)
  | prependDie
  /-- A worker receives from its timer. -/
  | receiveTimer (i : Fin n)
  /-- A step of a worker by itself. -/
  | work (i : Fin n)
  /-- The timer of a worker fires. -/
  | fire (i : Fin n) (now : Nat)
  | workerDie (i : Fin n)

namespace TimedSched

variable {n : Nat}

def setWorker (s : TimedSched n) (i : Fin n) (w : SchedWorker) : TimedSched n :=
  { s with workers := Function.update s.workers i w }

/-- A step of `prepend` by itself; the swap is under the lock. -/
def prepend (s : TimedSched n) : TimedSched n :=
  match s.prependPc with
  | .select =>
    if s.chPrependNotify then { s with chPrependNotify := false, prependPc := .swap } else s
  | .swap => { s with
      tasks := s.prependTasks
      prependTasks := { s.tasks with len := 0 }
      prependPc := .send 0 }
  | .send k =>
    if k < s.tasks.len then s
    else { s with tasks := { s.tasks with len := 0 }, prependPc := .select }
  | .clear k => { s with arrays := s.arrays.set s.tasks k none, prependPc := .send (k + 1) }
  | .returned _ => s

/-- `prepend` hands a task over to the worker `i`. -/
def handOver (s : TimedSched n) (i : Fin n) : TimedSched n :=
  match s.prependPc with
  | .send k =>
    if k < s.tasks.len ∧ (s.workers i).pc = .select then
      match s.arrays.get s.tasks k with
      | none => s
      | some task =>
        { s with prependPc := .clear k }.setWorker i { s.workers i with pc := .received task }
    else s
  | _ => s

/-- One event; one that cannot happen has no effect. -/
def step (async : Bool) (s : TimedSched n) : SchedEvent n → TimedSched n
  | .tick d => { s with clock := s.clock + d }
  | .put ts spare =>
    let task : TimedFunc := ⟨s.put.length, ts⟩
    let (arrays, prependTasks) := s.arrays.append s.prependTasks task spare
    { s with
      arrays, prependTasks
      put := s.put ++ [task]
      notifying := task.put :: s.notifying }
  | .notify p =>
    if p ∈ s.notifying then { s with notifying := s.notifying.erase p, chPrependNotify := true }
    else s
  | .close => { s with die := true }
  | .prepend => s.prepend
  | .handOver i => s.handOver i
  | .prependDie =>
    match s.prependPc with
    | .select => if s.die then { s with prependPc := .returned 0 } else s
    | .send k => if s.die ∧ k < s.tasks.len then { s with prependPc := .returned k } else s
    | _ => s
  | .receiveTimer i =>
    let w := s.workers i
    match w.pc, w.timer.c with
    | .select, some now =>
      s.setWorker i { w with timer := { w.timer with c := none }, drained := true, pc := .loop now }
    | _, _ => s
  | .work i =>
    let (w, ran) := (s.workers i).step async s.clock
    { s.setWorker i w with executed := s.executed ++ (ran.map fun task => (task, s.clock)).toList }
  | .fire i now =>
    let w := s.workers i
    s.setWorker i { w with timer := w.timer.fire s.clock now }
  | .workerDie i =>
    let w := s.workers i
    if s.die ∧ w.pc = .select then s.setWorker i { w with pc := .returned } else s

/-- The state after the events. -/
def runFrom (async : Bool) (s : TimedSched n) (es : List (SchedEvent n)) : TimedSched n :=
  es.foldl (step async) s

/-- `NewTimedSched` at the time `clock`: the slices are `nil`, and the timers are new. -/
def newTimedSched (n clock : Nat) : TimedSched n where
  clock := clock
  arrays := ⟨fun _ => [], 2⟩
  prependTasks := ⟨0, 0⟩
  chPrependNotify := false
  notifying := []
  die := false
  prependPc := .select
  tasks := ⟨1, 0⟩
  workers := fun _ => ⟨[], ⟨some clock, none⟩, false, .select⟩
  put := []
  executed := []

end TimedSched

/-! ## The timer of a worker -/

namespace SchedWorker

variable {async : Bool} {w : SchedWorker} {clock : Nat}

/-- The timer against the flag: it is neither armed nor fired after its time was received, and one
of both otherwise. -/
def TimerOk (w : SchedWorker) : Prop :=
  if w.drained then w.timer = ⟨none, none⟩
  else w.timer.due.isSome ∧ w.timer.c = none ∨ w.timer.due = none ∧ w.timer.c.isSome

/-- The timer at the place of the worker in the code. -/
def PcOk (w : SchedWorker) (clock : Nat) : Prop :=
  match w.pc with
  | .select | .received _ | .execute none => w.TimerOk ∧ (w.drained → w.tasks = [])
  | .compare _ now => now ≤ clock ∧ w.TimerOk ∧ (w.drained → w.tasks = [])
  | .stop now => now ≤ clock ∧ w.tasks ≠ [] ∧ w.TimerOk
  | .drain now => now ≤ clock ∧ w.tasks ≠ [] ∧ w.timer.due = none ∧ w.timer.c.isSome
  | .reset now => now ≤ clock ∧ w.tasks ≠ [] ∧ w.timer = ⟨none, none⟩
  | .loop now | .execute (some now) => now ≤ clock ∧ w.drained ∧ w.timer = ⟨none, none⟩
  | .returned => True
  | .panicked => False

/-- The invariant of a worker. -/
structure Inv (w : SchedWorker) (clock : Nat) : Prop where
  pcOk : w.PcOk clock
  c_le : ∀ now, w.timer.c = some now → now ≤ clock
  ordered : BinHeap.Ordered TimedFunc.ts w.tasks

theorem lessBy_ts (tasks : List TimedFunc) : BinHeap.LessBy timedFuncLess TimedFunc.ts tasks := by
  intro x _ y _
  simp [timedFuncLess]

/-- The first task of the heap has the earliest deadline. -/
theorem head_le {first task : TimedFunc} (h : BinHeap.Ordered TimedFunc.ts w.tasks)
    (hfirst : w.tasks.head? = some first) (htask : task ∈ w.tasks) : first.ts ≤ task.ts := by
  obtain ⟨i, hi, rfl⟩ := List.mem_iff_getElem.mp htask
  have hle := h.head_le hi
  rw [BinHeap.keyAt_eq hi, BinHeap.keyAt_eq (Nat.zero_lt_of_lt hi)] at hle
  rw [List.head?_eq_getElem?, List.getElem?_eq_getElem (Nat.zero_lt_of_lt hi),
    Option.some_inj] at hfirst
  exact hfirst ▸ hle

theorem push_ne_nil (tasks : List TimedFunc) (task : TimedFunc) :
    BinHeap.push timedFuncLess tasks task ≠ [] := by
  intro hnil
  have hperm : (BinHeap.push timedFuncLess tasks task).Perm (task :: tasks) :=
    BinHeap.push_perm tasks task
  rw [hnil] at hperm
  cases hperm.symm.eq_nil

/-- `Stop` leaves nothing in the timer, unless a time is still to be received. -/
theorem stop_spec (async : Bool) (htimer : w.TimerOk) :
    (w.timer.stop async).1.due = none ∧
      if !(w.timer.stop async).2 && !w.drained then (w.timer.stop async).1.c.isSome ∧
        (w.timer.stop async).1.c = w.timer.c
      else (w.timer.stop async).1 = ⟨none, none⟩ := by
  obtain ⟨tasks, ⟨due, c⟩, drained, pc⟩ := w
  unfold TimerOk at htimer
  unfold Timer.stop
  cases async <;> cases drained <;> cases due <;> cases c <;> simp_all

/-- The steps of a worker by itself keep the invariant. -/
theorem Inv.step (h : w.Inv clock) : (w.step async clock).1.Inv clock := by
  obtain ⟨tasks, timer, drained, pc⟩ := w
  obtain ⟨hpc, hc, hord⟩ := h
  dsimp only at hc hord
  cases pc with
  | received task => exact ⟨⟨le_rfl, hpc⟩, hc, hord⟩
  | compare task now =>
    obtain ⟨hnow, hwait⟩ := hpc
    unfold SchedWorker.step
    dsimp only
    split
    · exact ⟨hwait, hc, hord⟩
    · exact ⟨⟨hnow, push_ne_nil tasks task, hwait.1⟩, hc, BinHeap.push_ordered (lessBy_ts _) hord⟩
  | stop now =>
    obtain ⟨hnow, hne, htimer⟩ := hpc
    obtain ⟨hdue, hstop⟩ := stop_spec async htimer
    unfold SchedWorker.step
    dsimp only at hdue hstop hne ⊢
    split at hstop
    · rename_i hdrain
      rw [if_pos hdrain]
      exact ⟨⟨hnow, hne, hdue, hstop.1⟩, fun now hc' => hc now (hstop.2 ▸ hc'), hord⟩
    · rename_i hdrain
      rw [if_neg hdrain]
      refine ⟨⟨hnow, hne, hstop⟩, fun now hc' => ?_, hord⟩
      dsimp only at hc'
      rw [hstop] at hc'
      cases hc'
  | drain now =>
    obtain ⟨hnow, hne, hdue, hfired⟩ := hpc
    unfold SchedWorker.step
    dsimp only at hdue hfired ⊢
    rw [if_pos hfired]
    refine ⟨⟨hnow, hne, ?_⟩, fun _ h => (by cases h), hord⟩
    rw [← hdue]
  | reset now =>
    obtain ⟨hnow, hne, htimer⟩ := hpc
    dsimp only at hne htimer
    obtain ⟨first, rest, rfl⟩ := List.exists_cons_of_ne_nil hne
    subst htimer
    have hc' : ((⟨none, none⟩ : Timer).reset async clock (first.ts - now)).c = none := by
      cases async <;> rfl
    refine ⟨⟨Or.inl ⟨rfl, hc'⟩, fun h => (by cases h)⟩, fun now' h => ?_, hord⟩
    exact absurd (hc'.symm.trans h) (by simp)
  | loop now =>
    obtain ⟨hnow, hdrained, htimer⟩ := hpc
    dsimp only at hdrained htimer
    subst hdrained htimer
    cases tasks with
    | nil => exact ⟨⟨rfl, fun _ => rfl⟩, hc, hord⟩
    | cons first rest =>
      unfold SchedWorker.step
      simp only [List.head?_cons]
      split
      · split
        · rename_i hpop
          cases (BinHeap.pop_eq_none_iff _).mp hpop
        · rename_i task tasks hpop
          exact ⟨⟨hnow, rfl, rfl⟩, hc, (BinHeap.pop_ordered (lessBy_ts _) hord hpop).1⟩
      · exact ⟨⟨hnow, List.cons_ne_nil _ _, rfl⟩, hc, hord⟩
  | execute next =>
    cases next with
    | _ => exact ⟨hpc, hc, hord⟩
  | _ => exact ⟨hpc, hc, hord⟩

theorem Inv.mono {clock' : Nat} (h : w.Inv clock) (hle : clock ≤ clock') : w.Inv clock' := by
  obtain ⟨tasks, timer, drained, pc⟩ := w
  obtain ⟨hpc, hc, hord⟩ := h
  refine ⟨?_, fun now hnow => (hc now hnow).trans hle, hord⟩
  cases pc with
  | compare task now => exact ⟨hpc.1.trans hle, hpc.2⟩
  | stop now => exact ⟨hpc.1.trans hle, hpc.2⟩
  | drain now => exact ⟨hpc.1.trans hle, hpc.2⟩
  | reset now => exact ⟨hpc.1.trans hle, hpc.2⟩
  | loop now => exact ⟨hpc.1.trans hle, hpc.2⟩
  | execute next =>
    cases next with
    | none => exact hpc
    | some now => exact ⟨hpc.1.trans hle, hpc.2⟩
  | _ => exact hpc

/-- What the firing of a timer does: nothing, or its time gets into the channel. -/
theorem fire_cases (t : Timer) (clock now : Nat) :
    t.fire clock now = t ∨ (∃ due, t.due = some due ∧ due ≤ now) ∧ now ≤ clock ∧
      t.fire clock now = ⟨none, some (t.c.getD now)⟩ := by
  unfold Timer.fire
  split
  · exact .inl rfl
  · rename_i due hdue
    split
    · rename_i hnow
      exact .inr ⟨⟨due, hdue, hnow.1⟩, hnow.2, rfl⟩
    · exact .inl rfl

theorem Inv.fire (h : w.Inv clock) (now : Nat) :
    { w with timer := w.timer.fire clock now : SchedWorker }.Inv clock := by
  rcases fire_cases w.timer clock now with heq | ⟨⟨due, hdue, -⟩, hnow, heq⟩
  · rw [heq]
    exact h
  obtain ⟨tasks, ⟨due', c⟩, drained, pc⟩ := w
  obtain ⟨hpc, hc, hord⟩ := h
  dsimp only at hdue heq hc hord ⊢
  subst hdue
  rw [heq]
  have hok : ∀ pc pc' c', TimerOk ⟨tasks, ⟨some due, c⟩, drained, pc⟩ →
      TimerOk ⟨tasks, ⟨none, some c'⟩, drained, pc'⟩ := by
    intro pc pc' c' htimer
    unfold TimerOk at htimer ⊢
    cases drained <;> simp_all
  refine ⟨?_, ?_, hord⟩
  · cases pc with
    | compare task now => exact ⟨hpc.1, hok _ _ _ hpc.2.1, hpc.2.2⟩
    | stop now => exact ⟨hpc.1, hpc.2.1, hok _ _ _ hpc.2.2⟩
    | drain now => cases hpc.2.2.1
    | reset now => cases hpc.2.2
    | loop now => cases hpc.2.2
    | execute next =>
      cases next with
      | none => exact ⟨hok _ _ _ hpc.1, hpc.2⟩
      | some now => cases hpc.2.2
    | returned => trivial
    | panicked => exact hpc
    | _ => exact ⟨hok _ _ _ hpc.1, hpc.2⟩
  · intro now' hnow'
    cases c with
    | none => cases hnow'; exact hnow
    | some now₀ => exact hc now' hnow'

/-- A worker receives from its timer. -/
theorem Inv.receiveTimer {now : Nat} (h : w.Inv clock) (hpc : w.pc = .select)
    (hnow : w.timer.c = some now) :
    { w with timer := { w.timer with c := none }, drained := true, pc := .loop now :
      SchedWorker }.Inv clock := by
  obtain ⟨tasks, ⟨due, c⟩, drained, pc⟩ := w
  obtain ⟨hpcOk, hc, hord⟩ := h
  dsimp only at hpc hnow hc hord ⊢
  subst hpc hnow
  refine ⟨⟨hc now rfl, rfl, ?_⟩, fun _ h => (by cases h), hord⟩
  have htimer := hpcOk.1
  unfold TimerOk at htimer
  cases drained <;> simp_all

/-! ## Deadlines -/

/-- The timer is armed for no later than each deadline, or is due already where that has passed. -/
def InTime (w : SchedWorker) (clock : Nat) : Prop :=
  ∀ due, w.timer.due = some due → ∀ task ∈ w.tasks, due ≤ max task.ts clock

theorem InTime.mono {clock' : Nat} (h : w.InTime clock) (hle : clock ≤ clock') : w.InTime clock' :=
  fun due hdue task htask => (h due hdue task htask).trans (max_le_max_left _ hle)

/-- The worker is in a `select` or has not begun with what it received there. -/
def AtSelect (w : SchedWorker) : Prop :=
  match w.pc with
  | .select | .received _ | .compare _ _ | .execute none => True
  | _ => False

/-- The worker is at a receive, and its timer has nothing for it. -/
def Blocked (w : SchedWorker) : Prop :=
  (w.pc = .select ∨ ∃ now, w.pc = .drain now) ∧ w.timer.c = none

/-- A worker that waits with tasks in its heap has an armed timer. -/
theorem Inv.due_of_blocked (h : w.Inv clock) (hblocked : w.Blocked) (hne : w.tasks ≠ []) :
    w.pc = .select ∧ ∃ due, w.timer.due = some due := by
  obtain ⟨hpc, hc⟩ := hblocked
  have hpcOk := h.pcOk
  rcases hpc with hpc | ⟨now, hpc⟩
  · rw [PcOk, hpc] at hpcOk
    obtain ⟨htimer, hdrained⟩ := hpcOk
    have hnot : ¬ w.drained := mt hdrained hne
    rw [TimerOk, if_neg hnot] at htimer
    rcases htimer with ⟨hdue, -⟩ | ⟨-, hfired⟩
    · exact ⟨hpc, Option.isSome_iff_exists.mp hdue⟩
    · rw [hc] at hfired
      cases hfired
  · rw [PcOk, hpc] at hpcOk
    rw [hc] at hpcOk
    cases hpcOk.2.2.2

/-- A reset sets the timer in time exactly where it happens at the time that it is computed from, or
where the earliest deadline had passed at that time. -/
theorem inTime_reset_iff {now : Nat} {first : TimedFunc} (h : w.Inv clock) (hpc : w.pc = .reset now)
    (hfirst : w.tasks.head? = some first) :
    (w.step async clock).1.InTime clock ↔ now = clock ∨ first.ts ≤ now := by
  have hle : ∀ task ∈ w.tasks, first.ts ≤ task.ts := fun _ => head_le h.ordered hfirst
  obtain ⟨tasks, timer, drained, pc⟩ := w
  dsimp only at hpc hfirst hle
  subst hpc
  obtain ⟨⟨hnow, -⟩, -, -⟩ := h
  obtain ⟨rest, rfl⟩ := List.head?_eq_some_iff.mp hfirst
  constructor
  · intro hin
    have := hin _ rfl first List.mem_cons_self
    omega
  · intro htime due hdue task htask
    cases hdue
    have := hle task htask
    omega

theorem loop_timer (tasks : List TimedFunc) (timer : Timer) (drained : Bool) (now : Nat) :
    (SchedWorker.step async ⟨tasks, timer, drained, .loop now⟩ clock).1.timer = timer := by
  unfold SchedWorker.step
  dsimp only
  split
  · rfl
  split
  · split <;> rfl
  · rfl

/-- The earliest deadline and the time that a reset is computed from, where that is the next
step. -/
def resetArgs (w : SchedWorker) : Option (Nat × Nat) :=
  match w.pc with
  | .reset now => w.tasks.head?.map fun first => (first.ts, now)
  | _ => none

/-- The steps of a worker keep the timer in time, if its resets are on time. -/
theorem inTime_step (h : w.Inv clock) (hin : w.AtSelect → w.InTime clock)
    (htime : ∀ x ∈ w.resetArgs, x.2 = clock ∨ x.1 ≤ x.2) :
    (w.step async clock).1.AtSelect → (w.step async clock).1.InTime clock := by
  by_cases hreset : ∃ now, w.pc = .reset now
  · obtain ⟨now, hpc⟩ := hreset
    have hpcOk := h.pcOk
    rw [PcOk, hpc] at hpcOk
    obtain ⟨first, hfirst⟩ := Option.isSome_iff_exists.mp (List.isSome_head?.mpr hpcOk.2.1)
    have hargs : w.resetArgs = some (first.ts, now) := by rw [resetArgs, hpc, hfirst]; rfl
    exact fun _ => (inTime_reset_iff h hpc hfirst).mpr (htime _ hargs)
  obtain ⟨tasks, timer, drained, pc⟩ := w
  cases pc with
  | select => exact hin
  | received task => exact fun _ => hin trivial
  | reset now => exact absurd ⟨now, rfl⟩ hreset
  | panicked => exact fun h => h.elim
  | returned => exact fun h => h.elim
  | compare task now =>
    unfold SchedWorker.step
    dsimp only
    split
    · exact fun _ => hin trivial
    · exact fun h => h.elim
  | loop now =>
    obtain ⟨hnow, -, htimer⟩ := h.pcOk
    dsimp only at htimer
    subst htimer
    intro _ due hdue
    rw [loop_timer] at hdue
    cases hdue
  | execute next =>
    cases next with
    | none => exact hin
    | some now => exact fun h => h.elim
  | _ =>
    unfold SchedWorker.step
    dsimp only
    split <;> exact fun h => h.elim

/-! ## The tasks of a worker -/

/-- The task that a worker has received and not yet dealt with. -/
def inHand (w : SchedWorker) : List TimedFunc :=
  match w.pc with
  | .received task | .compare task _ => [task]
  | _ => []

/-- The tasks of a worker. -/
def held (w : SchedWorker) : Multiset TimedFunc := w.inHand + w.tasks

/-- A step of a worker gives at most the task that it begins to execute away. -/
theorem held_step (async : Bool) (w : SchedWorker) (clock : Nat) :
    (w.step async clock).2.toList + (w.step async clock).1.held = w.held := by
  obtain ⟨tasks, timer, drained, pc⟩ := w
  cases pc with
  | compare task now =>
    unfold SchedWorker.step
    dsimp only
    split
    · simp [held, inHand]
    · have hperm : (BinHeap.push timedFuncLess tasks task).Perm (task :: tasks) :=
        BinHeap.push_perm tasks task
      simpa [held, inHand] using hperm
  | stop now =>
    unfold SchedWorker.step
    dsimp only
    split <;> simp [held, inHand]
  | drain now =>
    unfold SchedWorker.step
    dsimp only
    split <;> simp [held, inHand]
  | reset now =>
    unfold SchedWorker.step
    dsimp only
    split <;> simp [held, inHand]
  | loop now =>
    unfold SchedWorker.step
    dsimp only
    split
    · simp [held, inHand]
    split
    · split
      · simp [held, inHand]
      · rename_i task tasks' hpop
        have hperm := BinHeap.pop_perm hpop
        simpa [held, inHand] using hperm
    · simp [held, inHand]
  | execute next => cases next <;> simp [SchedWorker.step, held, inHand]
  | _ => simp [SchedWorker.step, held, inHand]

/-- A task that a worker begins to execute is past its deadline. -/
theorem step_late {task : TimedFunc} (h : w.Inv clock) (hran : (w.step async clock).2 = some task) :
    task.ts < clock := by
  obtain ⟨tasks, timer, drained, pc⟩ := w
  unfold SchedWorker.step at hran
  cases pc with
  | compare task' now =>
    obtain ⟨hnow, -⟩ := h.pcOk
    dsimp only at hran
    split at hran
    · rename_i hlate
      cases hran
      exact hlate.trans_le hnow
    · cases hran
  | loop now =>
    obtain ⟨hnow, -⟩ := h.pcOk
    dsimp only at hran
    split at hran
    · cases hran
    rename_i first hfirst
    split at hran
    · rename_i hlate
      split at hran
      · cases hran
      · rename_i task' tasks' hpop
        cases hran
        obtain ⟨-, hleast⟩ := BinHeap.pop_ordered (lessBy_ts _) h.ordered hpop
        exact ((hleast first (List.mem_of_head? hfirst)).trans_lt hlate).trans_le hnow
    · cases hran
  | reset now =>
    dsimp only at hran
    split at hran <;> cases hran
  | drain now =>
    dsimp only at hran
    split at hran <;> cases hran
  | execute next => cases next <;> cases hran
  | _ => cases hran

end SchedWorker

/-! ## Places -/

section

variable {ι α : Type} [Fintype ι] [DecidableEq ι] {f g : ι → Multiset α} {p q : ι} {m : Multiset α}

theorem sum_of_arrival (h : ∀ r, g r = f r + if r = p then m else 0) : ∑ r, g r = ∑ r, f r + m := by
  calc ∑ r, g r = ∑ r, (f r + if r = p then m else 0) := Finset.sum_congr rfl fun r _ => h r
    _ = ∑ r, f r + m := by
      rw [Finset.sum_add_distrib, Finset.sum_ite_eq' _ p, if_pos (Finset.mem_univ p)]

theorem sum_of_transfer (h : ∀ r, (g r + if r = p then m else 0) = f r + if r = q then m else 0) :
    ∑ r, g r = ∑ r, f r := by
  have hg := sum_of_arrival (g := fun r => g r + if r = p then m else 0) (f := g) fun _ => rfl
  have hf := sum_of_arrival (g := fun r => g r + if r = p then m else 0) (f := f) h
  exact add_right_cancel (hg.symm.trans hf)

theorem existsUnique_place {x : α} (hnodup : (∑ r, f r).Nodup) (hx : x ∈ ∑ r, f r) :
    ∃! r, x ∈ f r := by
  obtain ⟨r, -, hr⟩ := Multiset.mem_sum.mp hx
  refine ⟨r, hr, fun r' hr' => ?_⟩
  by_contra hne
  have hle : f r + f r' ≤ ∑ r, f r := by
    rw [← Finset.sum_pair (Ne.symm hne)]
    exact Finset.sum_le_sum_of_subset (Finset.subset_univ _)
  exact Multiset.disjoint_left.mp
    (Multiset.nodup_add.mp (Multiset.nodup_of_le hle hnodup)).2.2 hr hr'

end

/-- Where a task can be. -/
inductive TaskPlace (n : Nat) where
  | prependTasks
  /-- The part of the slice of `prepend` that has not been handed over. -/
  | prepend
  | worker (i : Fin n)
  | executed
  deriving DecidableEq, Fintype

namespace TimedSched

variable {n : Nat} {async : Bool} {s s' : TimedSched n} {e : SchedEvent n}

/-- The tasks in a place. -/
def tasksAt (s : TimedSched n) : TaskPlace n → Multiset TimedFunc
  | .prependTasks => s.arrays.elems s.prependTasks 0
  | .prepend => s.arrays.elems s.tasks s.prependPc.next
  | .worker i => (s.workers i).held
  | .executed => s.executed.map Prod.fst

/-- The two slices, of different arrays, with the place of `prepend` in its own. -/
structure SlicesOk (s : TimedSched n) : Prop where
  prependTasks : ∃ xs, s.arrays.Holds s.prependTasks 0 xs
  tasks : ∃ xs, s.arrays.Holds s.tasks s.prependPc.next xs
  apart : s.prependTasks.array ≠ s.tasks.array
  empty : s.prependPc = .select ∨ s.prependPc = .swap → s.tasks.len = 0

/-- Every task put is in one of the places, as often as it was put. -/
def Accounted (s : TimedSched n) : Prop := (s.put : Multiset TimedFunc) = ∑ p, s.tasksAt p

theorem tasksAt_setWorker (s : TimedSched n) (i : Fin n) (w : SchedWorker) (p : TaskPlace n) :
    (s.setWorker i w).tasksAt p = if p = .worker i then w.held else s.tasksAt p := by
  cases p with
  | worker j =>
    by_cases hj : j = i
    · subst hj
      simp [tasksAt, setWorker]
    · simp [tasksAt, setWorker, hj]
  | _ => rfl

variable {i : Fin n} {w : SchedWorker} {xs : List TimedFunc}

/-- A change of a worker that keeps its tasks. -/
theorem Accounted.setWorker (h : s.Accounted) (hw : w.held = (s.workers i).held) :
    (s.setWorker i w).Accounted := by
  refine h.trans (Finset.sum_congr rfl fun p _ => ?_)
  rw [tasksAt_setWorker]
  split
  · rename_i hp
    rw [hp, hw, tasksAt]
  · rfl

theorem tasksAt_prependTasks (h : s.arrays.Holds s.prependTasks 0 xs) :
    s.tasksAt .prependTasks = xs := by
  rw [tasksAt, h.elems_eq]

theorem tasksAt_prepend (h : s.arrays.Holds s.tasks s.prependPc.next xs) :
    s.tasksAt .prepend = xs := by
  rw [tasksAt, h.elems_eq]

/-! ## What an event can do -/

/-- What an event can do. -/
inductive Moves (async : Bool) (s : TimedSched n) (e : SchedEvent n) : TimedSched n → Prop
  | stay : Moves async s e s
  | tick (d : Nat) : Moves async s e { s with clock := s.clock + d }
  | close : Moves async s e { s with die := true }
  | put (ts spare : Nat) (he : e = .put ts spare) : Moves async s e (s.step async (.put ts spare))
  | notify (p : Nat) :
      Moves async s e { s with notifying := s.notifying.erase p, chPrependNotify := true }
  | receive (hpc : s.prependPc = .select) :
      Moves async s e { s with chPrependNotify := false, prependPc := .swap }
  | swap (hpc : s.prependPc = .swap) : Moves async s e { s with
      tasks := s.prependTasks, prependTasks := { s.tasks with len := 0 }, prependPc := .send 0 }
  | finish (k : Nat) (hpc : s.prependPc = .send k) (hk : s.tasks.len ≤ k) :
      Moves async s e { s with tasks := { s.tasks with len := 0 }, prependPc := .select }
  | clear (k : Nat) (hpc : s.prependPc = .clear k) :
      Moves async s e { s with arrays := s.arrays.set s.tasks k none, prependPc := .send (k + 1) }
  | returns (hpc : s.prependPc ≠ .swap) :
      Moves async s e { s with prependPc := .returned s.prependPc.next }
  | handOver (i : Fin n) (k : Nat) (task : TimedFunc) (hpc : s.prependPc = .send k)
      (hk : k < s.tasks.len) (hselect : (s.workers i).pc = .select)
      (htask : s.arrays.get s.tasks k = some task) :
      Moves async s e
        ({ s with prependPc := .clear k }.setWorker i { s.workers i with pc := .received task })
  | receiveTimer (i : Fin n) (now : Nat) (hselect : (s.workers i).pc = .select)
      (hnow : (s.workers i).timer.c = some now) :
      Moves async s e (s.setWorker i { s.workers i with
        timer := { (s.workers i).timer with c := none }, drained := true, pc := .loop now })
  | work (i : Fin n) (he : e = .work i) : Moves async s e (s.step async (.work i))
  | fire (i : Fin n) (now : Nat) :
      Moves async s e
        (s.setWorker i { s.workers i with timer := (s.workers i).timer.fire s.clock now })
  | die (i : Fin n) (hselect : (s.workers i).pc = .select) :
      Moves async s e (s.setWorker i { s.workers i with pc := .returned })

theorem prepend_moves (s : TimedSched n) (e : SchedEvent n) : Moves async s e s.prepend := by
  unfold TimedSched.prepend
  split
  · rename_i hpc
    split
    · exact .receive hpc
    · exact .stay
  · rename_i hpc
    exact .swap hpc
  · rename_i k hpc
    split
    · exact .stay
    · rename_i hk
      exact .finish k hpc (Nat.le_of_not_lt hk)
  · rename_i k hpc
    exact .clear k hpc
  · exact .stay

theorem handOver_moves (s : TimedSched n) (e : SchedEvent n) (i : Fin n) :
    Moves async s e (s.handOver i) := by
  unfold TimedSched.handOver
  split
  · rename_i k hpc
    split
    · rename_i hk
      split
      · exact .stay
      · rename_i task htask
        exact .handOver i k task hpc hk.1 hk.2 htask
    · exact .stay
  · exact .stay

theorem step_moves (async : Bool) (s : TimedSched n) (e : SchedEvent n) :
    Moves async s e (s.step async e) := by
  cases e with
  | tick d => exact .tick d
  | put ts spare => exact .put ts spare rfl
  | close => exact .close
  | prepend => exact prepend_moves s _
  | handOver i => exact handOver_moves s _ i
  | work i => exact .work i rfl
  | fire i now => exact .fire i now
  | notify p =>
    unfold TimedSched.step
    dsimp only
    split
    · exact .notify p
    · exact .stay
  | prependDie =>
    unfold TimedSched.step
    dsimp only
    split
    · rename_i hpc
      have hmove : Moves async s .prependDie { s with prependPc := .returned s.prependPc.next } :=
        .returns (by simp [hpc])
      rw [hpc] at hmove
      split
      · exact hmove
      · exact .stay
    · rename_i k hpc
      have hmove : Moves async s .prependDie { s with prependPc := .returned s.prependPc.next } :=
        .returns (by simp [hpc])
      rw [hpc] at hmove
      split
      · exact hmove
      · exact .stay
    · exact .stay
  | receiveTimer i =>
    unfold TimedSched.step
    dsimp only
    split
    · rename_i now hpc hnow
      exact .receiveTimer i now hpc hnow
    · exact .stay
  | workerDie i =>
    unfold TimedSched.step
    dsimp only
    split
    · rename_i hdie
      exact .die i hdie.2
    · exact .stay

/-! ## The tasks -/

/-- The task that is handed over is the first one that `prepend` has left. -/
theorem SlicesOk.head (h : s.SlicesOk) {k : Nat} {task : TimedFunc} (hpc : s.prependPc = .send k)
    (hk : k < s.tasks.len) (htask : s.arrays.get s.tasks k = some task) :
    ∃ xs, s.arrays.Holds s.tasks k (task :: xs) := by
  obtain ⟨xs, hxs⟩ := h.tasks
  rw [hpc, PrependPc.next] at hxs
  cases xs with
  | nil =>
    have hlen := Arrays.length_window hxs
    rw [List.length_nil] at hlen
    omega
  | cons first xs =>
    rw [hxs.get_head, Option.some_inj] at htask
    exact ⟨xs, htask ▸ hxs⟩

theorem SlicesOk.moves (h : s.SlicesOk) (hmove : Moves async s e s') : s'.SlicesOk := by
  have hsame : s.SlicesOk := h
  obtain ⟨⟨xs, hxs⟩, ⟨ys, hys⟩, hapart, hempty⟩ := h
  cases hmove with
  | put ts spare =>
    obtain ⟨hother, hne⟩ := hys.append_other (Ne.symm hapart) ⟨s.put.length, ts⟩ spare
    exact ⟨⟨_, hxs.append _ spare⟩, ⟨ys, hother⟩, Ne.symm hne, hempty⟩
  | receive hpc =>
    rw [hpc] at hys hempty
    exact ⟨⟨xs, hxs⟩, ⟨ys, hys⟩, hapart, fun _ => hempty (.inl rfl)⟩
  | swap => exact ⟨⟨[], hys.truncate 0⟩, ⟨xs, hxs⟩, Ne.symm hapart, fun h => by simp at h⟩
  | finish => exact ⟨⟨xs, hxs⟩, ⟨[], hys.truncate 0⟩, hapart, fun _ => rfl⟩
  | clear k hpc =>
    rw [hpc] at hys
    exact ⟨⟨xs, hxs.set_other hapart _ _⟩, ⟨ys, hys.clear⟩, hapart, fun h => by simp at h⟩
  | returns => exact ⟨⟨xs, hxs⟩, ⟨ys, hys⟩, hapart, fun h => by simp at h⟩
  | handOver i k task hpc hk _ htask =>
    obtain ⟨zs, hzs⟩ := hsame.head hpc hk htask
    exact ⟨⟨xs, hxs⟩, ⟨zs, hzs.tail⟩, hapart, fun h => by simp [setWorker] at h⟩
  | _ => exact ⟨⟨xs, hxs⟩, ⟨ys, hys⟩, hapart, hempty⟩

theorem Accounted.put (h : s.Accounted) (hs : s.SlicesOk) (ts spare : Nat) :
    (s.step async (.put ts spare)).Accounted := by
  obtain ⟨⟨xs, hxs⟩, ⟨ys, hys⟩, hapart, -⟩ := hs
  obtain ⟨hother, -⟩ := hys.append_other (Ne.symm hapart) ⟨s.put.length, ts⟩ spare
  unfold Accounted
  refine Eq.trans ?_ (sum_of_arrival (p := .prependTasks) (f := s.tasksAt)
    (m := {⟨s.put.length, ts⟩}) fun p => ?_).symm
  · rw [← h]
    rfl
  · cases p with
    | prependTasks =>
      rw [tasksAt_prependTasks hxs]
      exact tasksAt_prependTasks (hxs.append ⟨s.put.length, ts⟩ spare)
    | prepend =>
      rw [tasksAt_prepend hys]
      exact (tasksAt_prepend hother).trans (add_zero _).symm
    | _ => exact (add_zero _).symm

theorem Accounted.handOver (h : s.Accounted) {k : Nat} {task : TimedFunc}
    (hpc : s.prependPc = .send k) (hselect : (s.workers i).pc = .select)
    (hxs : s.arrays.Holds s.tasks k (task :: xs)) :
    ({ s with prependPc := .clear k }.setWorker i
      { s.workers i with pc := .received task }).Accounted := by
  refine h.trans (sum_of_transfer (p := .worker i) (q := .prepend) (m := {task}) fun p => ?_)
  rw [tasksAt_setWorker]
  cases p with
  | prepend =>
    have hs' : ({ s with prependPc := .clear k } : TimedSched n).tasksAt .prepend = xs :=
      tasksAt_prepend hxs.tail
    have hold : s.tasksAt .prepend = (task :: xs : List TimedFunc) :=
      tasksAt_prepend (hpc ▸ hxs)
    simp only [hold, hs', reduceCtorEq, if_false, if_true, add_zero]
    rw [add_comm, Multiset.singleton_add, Multiset.cons_coe]
  | worker j =>
    by_cases hj : j = i
    · subst hj
      simp [tasksAt, SchedWorker.held, SchedWorker.inHand, hselect, add_comm]
    · simp [tasksAt, hj]
  | _ => simp [tasksAt]

theorem Accounted.work (h : s.Accounted) (i : Fin n) : (s.step async (.work i)).Accounted := by
  have hheld := (s.workers i).held_step async s.clock
  refine h.trans (sum_of_transfer (p := .executed) (q := .worker i)
    (m := ((s.workers i).step async s.clock).2.toList) fun p => ?_)
  unfold TimedSched.step
  dsimp only
  generalize (s.workers i).step async s.clock = res at hheld ⊢
  cases p with
  | worker j =>
    by_cases hj : j = i
    · subst hj
      simp only [tasksAt, TimedSched.setWorker, Function.update_self, reduceCtorEq, if_false,
        if_true, add_zero]
      rw [← hheld, add_comm]
    · simp [tasksAt, TimedSched.setWorker, hj]
  | executed =>
    obtain ⟨w, ran⟩ := res
    cases ran with
    | none => simp [tasksAt]
    | some task => simp [tasksAt, ← Multiset.coe_add]
  | _ => simp [tasksAt, TimedSched.setWorker]

theorem Accounted.moves (h : s.Accounted) (hs : s.SlicesOk) (hmove : Moves async s e s') :
    s'.Accounted := by
  have hok := hs
  obtain ⟨⟨xs, hxs⟩, ⟨ys, hys⟩, hapart, hempty⟩ := hs
  have hold := tasksAt_prependTasks hxs
  have hown := tasksAt_prepend hys
  cases hmove with
  | put ts spare => exact h.put hok ts spare
  | receive hpc =>
    refine h.trans (Finset.sum_congr rfl fun p _ => ?_)
    cases p <;> simp [tasksAt, hpc, PrependPc.next]
  | swap hpc =>
    -- the whole slice changes hands
    have hnil : ys = [] := hys.nil_of_le (by rw [hempty (.inr hpc)]; exact Nat.zero_le _)
    refine h.trans (sum_of_transfer (p := .prepend) (q := .prependTasks) (m := xs) fun p => ?_)
    cases p with
    | prependTasks =>
      rw [hold, tasksAt_prependTasks (hys.truncate 0)]
      simp
    | prepend =>
      rw [hown, hnil, tasksAt_prepend hxs]
      simp
    | _ => rfl
  | finish k hpc hk =>
    -- all tasks have been handed over
    rw [hpc] at hys
    have hnil : ys = [] := hys.nil_of_le hk
    refine h.trans (Finset.sum_congr rfl fun p _ => ?_)
    cases p with
    | prepend => rw [hown, hnil, tasksAt_prepend (hys.truncate 0)]
    | _ => rfl
  | clear k hpc =>
    rw [hpc] at hys
    refine h.trans (Finset.sum_congr rfl fun p _ => ?_)
    cases p with
    | prependTasks => rw [hold, tasksAt_prependTasks (hxs.set_other hapart k none)]
    | prepend => rw [hown, tasksAt_prepend hys.clear]
    | _ => rfl
  | returns =>
    refine h.trans (Finset.sum_congr rfl fun p _ => ?_)
    cases p <;> rfl
  | handOver i k task hpc hk hselect htask =>
    obtain ⟨zs, hzs⟩ := hok.head hpc hk htask
    exact h.handOver hpc hselect hzs
  | receiveTimer i now hselect =>
    exact h.setWorker (by simp [SchedWorker.held, SchedWorker.inHand, hselect])
  | work i => exact h.work i
  | fire i now => exact h.setWorker rfl
  | die i hselect => exact h.setWorker (by simp [SchedWorker.held, SchedWorker.inHand, hselect])
  | _ => exact h

/-! ## The workers, the history and the notifications -/

/-- What an event can do to a worker. -/
inductive WorkerMoves (async : Bool) (s : TimedSched n) (e : SchedEvent n) (i : Fin n) :
    SchedWorker → Prop
  | receive (task : TimedFunc) (hpc : (s.workers i).pc = .select) :
      WorkerMoves async s e i { s.workers i with pc := .received task }
  | receiveTimer (now : Nat) (hpc : (s.workers i).pc = .select)
      (hnow : (s.workers i).timer.c = some now) :
      WorkerMoves async s e i { s.workers i with
        timer := { (s.workers i).timer with c := none }, drained := true, pc := .loop now }
  | work (he : e = .work i) : WorkerMoves async s e i ((s.workers i).step async s.clock).1
  | fire (now : Nat) :
      WorkerMoves async s e i { s.workers i with timer := (s.workers i).timer.fire s.clock now }
  | die (hpc : (s.workers i).pc = .select) :
      WorkerMoves async s e i { s.workers i with pc := .returned }

theorem Moves.workers (hmove : Moves async s e s') :
    s'.workers = s.workers ∧ s.clock ≤ s'.clock ∨
      ∃ i w, WorkerMoves async s e i w ∧ s'.workers = Function.update s.workers i w ∧
        s'.clock = s.clock := by
  cases hmove with
  | tick d => exact .inl ⟨rfl, Nat.le_add_right _ d⟩
  | handOver i k task _ _ hselect => exact .inr ⟨i, _, .receive task hselect, rfl, rfl⟩
  | receiveTimer i now hselect hnow => exact .inr ⟨i, _, .receiveTimer now hselect hnow, rfl, rfl⟩
  | work i he => exact .inr ⟨i, _, .work he, rfl, rfl⟩
  | fire i now => exact .inr ⟨i, _, .fire now, rfl, rfl⟩
  | die i hselect => exact .inr ⟨i, _, .die hselect, rfl, rfl⟩
  | _ => exact .inl ⟨rfl, le_rfl⟩

theorem WorkerMoves.inv (hmove : WorkerMoves async s e i w) (h : (s.workers i).Inv s.clock) :
    w.Inv s.clock := by
  cases hmove with
  | receive task hpc =>
    obtain ⟨hpcOk, hc, hord⟩ := h
    rw [SchedWorker.PcOk, hpc] at hpcOk
    exact ⟨hpcOk, hc, hord⟩
  | receiveTimer now hpc hnow => exact h.receiveTimer hpc hnow
  | work => exact h.step
  | fire now => exact h.fire now
  | die => exact ⟨trivial, h.c_le, h.ordered⟩

theorem Moves.workers_inv (hmove : Moves async s e s') (h : ∀ i, (s.workers i).Inv s.clock)
    (j : Fin n) : (s'.workers j).Inv s'.clock := by
  rcases hmove.workers with ⟨hsame, hclock⟩ | ⟨i, w, hmove, hworkers, hclock⟩
  · rw [hsame]
    exact (h j).mono hclock
  · rw [hworkers, hclock]
    by_cases hj : j = i
    · subst hj
      rw [Function.update_self]
      exact hmove.inv (h j)
    · rw [Function.update_of_ne hj]
      exact h j

/-- Only a worker's own step executes a task, and only a `Put` puts one. -/
theorem Moves.history (hmove : Moves async s e s') :
    (s'.executed = s.executed ∨ ∃ i, s' = s.step async (.work i)) ∧
      (s'.put = s.put ∨ ∃ ts spare, s' = s.step async (.put ts spare)) := by
  cases hmove with
  | put ts spare => exact ⟨.inl rfl, .inr ⟨ts, spare, rfl⟩⟩
  | work i => exact ⟨.inr ⟨i, rfl⟩, .inl rfl⟩
  | _ => exact ⟨.inl rfl, .inl rfl⟩

theorem Moves.late (hmove : Moves async s e s') (h : ∀ x ∈ s.executed, x.1.ts < x.2)
    (hw : ∀ i, (s.workers i).Inv s.clock) : ∀ x ∈ s'.executed, x.1.ts < x.2 := by
  rcases hmove.history.1 with heq | ⟨i, rfl⟩
  · rw [heq]
    exact h
  intro x hx
  rcases List.mem_append.mp hx with hx | hx
  · exact h x hx
  · obtain ⟨task, hran, rfl⟩ := Option.map_eq_some_iff.mp (Option.mem_toList.mp hx)
    exact SchedWorker.step_late (hw i) hran

/-- The tasks are numbered. -/
theorem Moves.numbered (hmove : Moves async s e s')
    (h : s.put.map TimedFunc.put = List.range s.put.length) :
    s'.put.map TimedFunc.put = List.range s'.put.length := by
  rcases hmove.history.2 with heq | ⟨ts, spare, rfl⟩
  · rw [heq]
    exact h
  · simp [TimedSched.step, h, List.range_succ]

/-- A notification is on its way: in the channel, received by `prepend`, or to be sent by a
`Put`. -/
def Notified (s : TimedSched n) : Prop :=
  s.chPrependNotify = true ∨ s.prependPc = .swap ∨ s.notifying ≠ []

/-- Outside of the swap the place of `prepend` does not matter. -/
theorem Notified.of_eq (h : s.Notified) (hpc : s.prependPc ≠ .swap)
    (hnotify : s'.chPrependNotify = s.chPrependNotify) (hput : s'.notifying = s.notifying) :
    s'.Notified := by
  rcases h with h | h | h
  · exact .inl (hnotify.trans h)
  · exact absurd h hpc
  · exact .inr (.inr (hput ▸ h))

theorem Moves.notified (hmove : Moves async s e s') (h : s.tasksAt .prependTasks ≠ 0 → s.Notified)
    (hs : s.SlicesOk) (hne : s'.tasksAt .prependTasks ≠ 0) : s'.Notified := by
  obtain ⟨⟨xs, hxs⟩, ⟨ys, hys⟩, hapart, -⟩ := hs
  cases hmove with
  | put => exact .inr (.inr (List.cons_ne_nil _ _))
  | notify p => exact .inl rfl
  | receive => exact .inr (.inl rfl)
  | swap => exact absurd (tasksAt_prependTasks (hys.truncate 0)) hne
  | finish k hpc => exact (h hne).of_eq (by simp [hpc]) rfl rfl
  | clear k hpc =>
    have hsame : s.tasksAt .prependTasks ≠ 0 := by
      rw [tasksAt_prependTasks hxs]
      rwa [tasksAt_prependTasks (hxs.set_other hapart k none)] at hne
    exact (h hsame).of_eq (by simp [hpc]) rfl rfl
  | returns hpc => exact (h hne).of_eq hpc rfl rfl
  | handOver i k task hpc => exact (h hne).of_eq (by simp [hpc]) rfl rfl
  | _ => exact h hne

/-! ## Runs -/

/-- The invariant of the scheduler. -/
structure Inv (s : TimedSched n) : Prop where
  workers : ∀ i, (s.workers i).Inv s.clock
  slices : s.SlicesOk
  accounted : s.Accounted
  numbered : s.put.map TimedFunc.put = List.range s.put.length
  late : ∀ x ∈ s.executed, x.1.ts < x.2
  notified : s.tasksAt .prependTasks ≠ 0 → s.Notified

theorem Inv.step (h : s.Inv) (e : SchedEvent n) : (s.step async e).Inv where
  workers := (s.step_moves async e).workers_inv h.workers
  slices := h.slices.moves (s.step_moves async e)
  accounted := h.accounted.moves h.slices (s.step_moves async e)
  numbered := (s.step_moves async e).numbered h.numbered
  late := (s.step_moves async e).late h.late h.workers
  notified := (s.step_moves async e).notified h.notified h.slices

theorem inv_newTimedSched (n clock : Nat) : (newTimedSched n clock).Inv where
  workers i := ⟨⟨.inl ⟨rfl, rfl⟩, fun h => (by cases h)⟩, fun _ h => (by cases h),
    fun i hi h => absurd h (Nat.not_lt_zero i)⟩
  slices := ⟨⟨[], Nat.two_pos, Nat.le_refl 0, rfl⟩, ⟨[], Nat.one_lt_two, Nat.le_refl 0, rfl⟩,
    Nat.zero_ne_one, fun _ => rfl⟩
  accounted := by
    refine (Finset.sum_eq_zero fun p _ => ?_).symm
    cases p <;> rfl
  numbered := rfl
  late x hx := by cases hx
  notified h := absurd rfl h

theorem inv_runFrom (h : s.Inv) (es : List (SchedEvent n)) : (s.runFrom async es).Inv := by
  induction es generalizing s with
  | nil => exact h
  | cons e es ih => exact ih (h.step e)

/-- What an event computes a reset from. -/
def resetArgs (s : TimedSched n) : SchedEvent n → Option (Nat × Nat)
  | .work i => (s.workers i).resetArgs
  | _ => none

/-- A reset happens at the time that it is computed from, or the earliest deadline had passed at
that time. -/
def OnTime (s : TimedSched n) (e : SchedEvent n) : Prop :=
  ∀ x ∈ s.resetArgs e, x.2 = s.clock ∨ x.1 ≤ x.2

instance (s : TimedSched n) (e : SchedEvent n) : Decidable (s.OnTime e) :=
  inferInstanceAs (Decidable (∀ x ∈ s.resetArgs e, x.2 = s.clock ∨ x.1 ≤ x.2))

/-- Every reset of a run is on time. -/
def ResetsOnTime (async : Bool) : TimedSched n → List (SchedEvent n) → Prop
  | _, [] => True
  | s, e :: es => s.OnTime e ∧ ResetsOnTime async (s.step async e) es

instance decidableResetsOnTime (async : Bool) (s : TimedSched n) (es : List (SchedEvent n)) :
    Decidable (s.ResetsOnTime async es) :=
  match es with
  | [] => .isTrue trivial
  | e :: es =>
    let := decidableResetsOnTime async (s.step async e) es
    inferInstanceAs (Decidable (s.OnTime e ∧ ResetsOnTime async (s.step async e) es))

theorem WorkerMoves.inTime (hmove : WorkerMoves async s e i w) (hinv : (s.workers i).Inv s.clock)
    (h : (s.workers i).AtSelect → (s.workers i).InTime s.clock) (htime : s.OnTime e) :
    w.AtSelect → w.InTime s.clock := by
  cases hmove with
  | receive task hpc =>
    intro _
    exact h (by rw [SchedWorker.AtSelect, hpc]; trivial)
  | work he =>
    subst he
    exact SchedWorker.inTime_step hinv h htime
  | fire now =>
    intro hat due hdue
    rcases SchedWorker.fire_cases (s.workers i).timer s.clock now with heq | ⟨-, -, heq⟩
    · exact h hat due (heq ▸ hdue)
    · rw [heq] at hdue
      cases hdue
  | _ => exact fun hat => hat.elim

/-- On-time events keep the timers in time. -/
theorem inTime_step (hinv : s.Inv) (h : ∀ i, (s.workers i).AtSelect → (s.workers i).InTime s.clock)
    (htime : s.OnTime e) (j : Fin n) :
    ((s.step async e).workers j).AtSelect →
      ((s.step async e).workers j).InTime (s.step async e).clock := by
  rcases (s.step_moves async e).workers with ⟨hsame, hclock⟩ | ⟨i, w, hmove, hworkers, hclock⟩
  · rw [hsame]
    exact fun hat => (h j hat).mono hclock
  · rw [hworkers, hclock]
    by_cases hj : j = i
    · subst hj
      rw [Function.update_self]
      exact hmove.inTime (hinv.workers j) (h j) htime
    · rw [Function.update_of_ne hj]
      exact h j

theorem inTime_runFrom (hinv : s.Inv)
    (h : ∀ i, (s.workers i).AtSelect → (s.workers i).InTime s.clock) {es : List (SchedEvent n)}
    (htime : s.ResetsOnTime async es) (j : Fin n) :
    ((s.runFrom async es).workers j).AtSelect →
      ((s.runFrom async es).workers j).InTime (s.runFrom async es).clock := by
  induction es generalizing s with
  | nil => exact h j
  | cons e es ih => exact ih (hinv.step e) (inTime_step hinv h htime.1) htime.2

/-- No task is lost, executed twice or executed before its deadline, and waiting tasks have a
notification on its way. -/
structure LosesNothing (s : TimedSched n) : Prop where
  placed : ∀ task ∈ s.put, ∃! p, task ∈ s.tasksAt p
  once : (s.tasksAt .executed).Nodup
  late : ∀ x ∈ s.executed, x.1.ts < x.2
  notified : s.tasksAt .prependTasks ≠ 0 → s.Notified
  safe : ∀ i, (s.workers i).pc ≠ .panicked

/-- A worker that waits with tasks in its heap has its timer armed for no later than the earliest
deadline, or for a time that has come where that deadline has passed. -/
def ArmedInTime (s : TimedSched n) : Prop :=
  ∀ i, (s.workers i).Blocked → (s.workers i).tasks ≠ [] →
    ∃ due, (s.workers i).timer.due = some due ∧ ∀ task ∈ (s.workers i).tasks,
      due ≤ max task.ts s.clock

theorem Inv.losesNothing (h : s.Inv) : s.LosesNothing := by
  have hput : s.put.Nodup := by
    refine List.Nodup.of_map TimedFunc.put ?_
    rw [h.numbered]
    exact List.nodup_range
  have hnodup : (∑ p, s.tasksAt p).Nodup := by
    rw [← h.accounted]
    exact hput
  refine ⟨fun task htask => ?_, ?_, h.late, h.notified, fun i hpanic => ?_⟩
  · refine existsUnique_place hnodup ?_
    rw [← h.accounted]
    exact htask
  · exact Multiset.nodup_of_le (Finset.single_le_sum (fun p _ => Multiset.zero_le (s.tasksAt p))
      (Finset.mem_univ TaskPlace.executed)) hnodup
  · have hpcOk := (h.workers i).pcOk
    rw [SchedWorker.PcOk, hpanic] at hpcOk
    exact hpcOk

/-- No interleaving loses a task, executes one twice or before its deadline, or leaves a task
without a notification. A reset sets its timer in time exactly where the clock still shows the time
that it is computed from, or the earliest deadline had passed at that time; if all resets of a run
are so, every worker that waits has its timer armed for no later than its earliest deadline, or for
a time that has come where that has passed. -/
theorem timedSched_loses_nothing (async : Bool) (clock : Nat) (es : List (SchedEvent n)) :
    let s := (newTimedSched n clock).runFrom async es
    s.LosesNothing ∧
      (∀ i now first, (s.workers i).pc = .reset now → (s.workers i).tasks.head? = some first →
        (((s.step async (.work i)).workers i).InTime s.clock ↔ now = s.clock ∨ first.ts ≤ now)) ∧
      ((newTimedSched n clock).ResetsOnTime async es → s.ArmedInTime) := by
  intro s
  have hinv : s.Inv := inv_runFrom (inv_newTimedSched n clock) es
  refine ⟨hinv.losesNothing, fun i now first hpc hfirst => ?_, fun htime i hblocked hne => ?_⟩
  · have hstep : (s.step async (.work i)).workers i = ((s.workers i).step async s.clock).1 := by
      simp [TimedSched.step, setWorker]
    rw [hstep]
    exact SchedWorker.inTime_reset_iff (hinv.workers i) hpc hfirst
  · obtain ⟨hselect, due, hdue⟩ := (hinv.workers i).due_of_blocked hblocked hne
    have hnew : ∀ i, ((newTimedSched n clock).workers i).AtSelect →
        ((newTimedSched n clock).workers i).InTime clock := fun _ _ _ _ task htask => by cases htask
    have hin := inTime_runFrom (inv_newTimedSched n clock) hnew htime i
    exact ⟨due, hdue, hin (by rw [SchedWorker.AtSelect, hselect]; trivial) due hdue⟩

/-- Two tasks with the deadlines 5 and 12 get into the heap of a worker at the time 0. -/
def twoTasks : List (SchedEvent 1) :=
  [.fire 0 0, .receiveTimer 0, .work 0, .put 5 1, .notify 0, .put 12 0, .notify 1, .prepend,
    .prepend, .handOver 0, .work 0, .work 0, .work 0, .work 0, .prepend,
    .handOver 0, .work 0, .work 0, .work 0, .work 0, .prepend, .prepend]

/-- While no time passes the timer is set for the first deadline. -/
theorem timedSched_loses_nothing_twoTasks :
    let s := (newTimedSched 1 0).runFrom false twoTasks
    (s.workers 0).Blocked ∧ (s.workers 0).tasks = [⟨0, 5⟩, ⟨1, 12⟩] ∧ s.LosesNothing ∧
      s.ArmedInTime := by
  intro s
  have hw : s.workers 0 = ⟨[⟨0, 5⟩, ⟨1, 12⟩], ⟨some 5, none⟩, false, .select⟩ := by decide +kernel
  obtain ⟨hlose, -, harmed⟩ := timedSched_loses_nothing false 0 twoTasks
  refine ⟨?_, by rw [hw], hlose, harmed (by decide +kernel)⟩
  rw [hw]
  exact ⟨.inl rfl, rfl⟩

/-- The first task runs from the time 6 on for 10 units, and the deadline of the second one passes
meanwhile. -/
def longCallback : List (SchedEvent 1) :=
  twoTasks ++ [.tick 6, .fire 0 6, .receiveTimer 0, .work 0, .tick 10, .work 0, .work 0, .work 0]

/-- The timer is set for the time 22 afterwards, 10 units after the deadline. -/
theorem longCallback_armed_late :
    let s := (newTimedSched 1 0).runFrom false longCallback
    (s.workers 0).Blocked ∧ (s.workers 0).tasks = [⟨1, 12⟩] ∧ (s.workers 0).timer.due = some 22 ∧
      s.clock = 16 ∧ ¬ s.ArmedInTime := by
  intro s
  have hw : s.workers 0 = ⟨[⟨1, 12⟩], ⟨some 22, none⟩, false, .select⟩ := by decide +kernel
  have hblocked : (s.workers 0).Blocked := by
    rw [hw]
    exact ⟨.inl rfl, rfl⟩
  have hclock : s.clock = 16 := by decide +kernel
  refine ⟨hblocked, by rw [hw], by rw [hw], hclock, fun harmed => ?_⟩
  obtain ⟨due, hdue, hle⟩ := harmed 0 hblocked (by rw [hw]; exact List.cons_ne_nil _ _)
  rw [hw] at hdue hle
  cases hdue
  have hlate := hle _ List.mem_cons_self
  rw [hclock] at hlate
  exact absurd hlate (by decide)

end TimedSched

end Halo
