import Halo.Base.Trace
import Halo.Switch.Vlan

/-!
# The address records of a switch under concurrency

Every port of a switch handles its frames in a goroutine of its own. `HandleEthernet` looks the
source up under the read lock, inserts a missing record under the write lock, writes the record
without a lock, looks the destination up under the read lock and reads its record without a lock.
The ageing task holds the write lock for a whole round. `Shared` is the memory that they share,
`Call` says where the call of a port is, and an event is one of these sections.

* `Referenced`: the allocated records are the entries of the table, each under its own address.
* `accesses`: the records that a section reads or writes.
* `Quiet`: the condition on an event. An insertion finds no entry of its source, and a round of the
  ageing task deletes no record that a call has in its hands.
* `records_safe`: in every interleaving of quiet events the records are referenced and every access
  is to an allocated record. `records_disturbed` has the two interleavings that break this.
-/

namespace Halo

open Function

namespace Switch

/-- The address of a record. -/
abbrev RecordPtr := Nat

/-- A record with the source address that it was allocated for. -/
structure Record where
  own : MacAddr
  contents : SwitchMacAddr

/-- Where the call of `HandleEthernet` on a port is. -/
inductive Call where
  | idle
  /-- The source was not found. -/
  | insert (src dst : MacAddr)
  /-- The record of the source is to be written. -/
  | update (src dst : MacAddr) (p : RecordPtr)
  /-- The destination is to be looked up. -/
  | findDst (dst : MacAddr)
  /-- The record of the destination is to be read. -/
  | read (p : RecordPtr)
  deriving DecidableEq

/-- The shared memory, and the call on each port. -/
structure Shared where
  switchMacAddrTable : Table MacAddr RecordPtr
  /-- The records that are allocated. -/
  records : Table RecordPtr Record
  timeNow : UInt32
  calls : Bytes → Call

/-- A section of a call on a port, a round of the ageing task, or a tick of the clock. -/
inductive SharedEvent where
  /-- A frame arrives: its source is looked up. -/
  | findSrc (port : Bytes) (src dst : MacAddr)
  /-- `MallocType` (an address and what the memory there contains) and `SwitchMacAddrTable.Set`. -/
  | insert (port : Bytes) (memory : Option (RecordPtr × SwitchMacAddr)) (setOk : Bool)
  | update (port : Bytes)
  | findDst (port : Bytes)
  | read (port : Bytes)
  | sweep
  | clock (timeNow : UInt32)

namespace Shared

/-- A call goes on to its next section. -/
def goto (s : Shared) (port : Bytes) (call : Call) : Shared :=
  { s with calls := Function.update s.calls port call }

@[simp] theorem goto_calls_self (s : Shared) (port : Bytes) (call : Call) :
    (s.goto port call).calls port = call :=
  update_self _ _ _

variable {port : Bytes} {src : MacAddr} {p : RecordPtr}

theorem goto_calls_ne {port' : Bytes} (h : port' ≠ port) (s : Shared) (call : Call) :
    (s.goto port call).calls port' = s.calls port' :=
  update_of_ne h _ _

/-- The ageing task deletes the record. -/
def Expired (s : Shared) (r : Record) : Prop := s.timeNow > r.contents.createTime + 300

instance (s : Shared) (r : Record) : Decidable (s.Expired r) :=
  inferInstanceAs (Decidable (_ > _))

/-- The visit of one entry by the ageing task. The memory behind a pointer that is not allocated has
no contents here; the entry stays. -/
def sweepEntry (s : Shared) (e : Σ _ : MacAddr, RecordPtr) : Shared :=
  match s.records.lookup e.2 with
  | none => s
  | some r =>
    if s.Expired r then
      { s with
        switchMacAddrTable := s.switchMacAddrTable.erase e.1
        records := s.records.erase e.2 }
    else s

/-- One round of `SwitchMacAddrClear`, under the write lock. -/
def sweep (s : Shared) : Shared := s.switchMacAddrTable.entries.foldl sweepEntry s

/-- A new record for `src`, with an entry. -/
def addRecord (s : Shared) (src : MacAddr) (p : RecordPtr) (contents : SwitchMacAddr) : Shared :=
  { s with
    switchMacAddrTable := s.switchMacAddrTable.insert src p
    records := s.records.insert p ⟨src, contents⟩ }

/-- The insertion of a record for `src`, under the write lock. The allocator never returns memory
that is allocated. A record that the table does not take is freed in the same section. -/
def insertRecord (s : Shared) (src : MacAddr) (memory : Option (RecordPtr × SwitchMacAddr))
    (setOk : Bool) : Shared × Option RecordPtr :=
  match memory with
  | none => (s, none)
  | some (p, contents) =>
    if (s.records.lookup p).isSome ∨ setOk = false then (s, none)
    else (s.addRecord src p contents, some p)

/-- The unprotected writes of `MacAddr`, `NetIf` and `CreateTime`. What a write into freed memory
destroys is not modelled. -/
def updateRecord (s : Shared) (port : Bytes) (src : MacAddr) (p : RecordPtr) :
    Except Fault Shared :=
  match s.records.lookup p with
  | none => .ok s
  | some r => (r.contents.netIf.set port).map fun netIf =>
    { s with records := s.records.insert p ⟨r.own, ⟨src, netIf, s.timeNow⟩⟩ }

/-- One event. An event that is not the next section of its call does nothing. -/
def step (s : Shared) : SharedEvent → Except Fault (Shared × List Unit)
  | .findSrc port src dst =>
    if s.calls port ≠ .idle ∨ IsGroup src then .ok (s, [])
    else
      match s.switchMacAddrTable.lookup src with
      | some p => .ok (s.goto port (.update src dst p), [])
      | none => .ok (s.goto port (.insert src dst), [])
  | .insert port memory setOk =>
    match s.calls port with
    | .insert src dst =>
      match s.insertRecord src memory setOk with
      | (s, none) => .ok (s.goto port .idle, [])
      | (s, some p) => .ok (s.goto port (.update src dst p), [])
    | _ => .ok (s, [])
  | .update port =>
    match s.calls port with
    | .update src dst p =>
      (s.updateRecord port src p).map fun s => (s.goto port (.findDst dst), [])
    | _ => .ok (s, [])
  | .findDst port =>
    match s.calls port with
    | .findDst dst =>
      match s.switchMacAddrTable.lookup dst with
      | some p => .ok (s.goto port (.read p), [])
      | none => .ok (s.goto port .idle, [])
    | _ => .ok (s, [])
  | .read port =>
    match s.calls port with
    | .read _ => .ok (s.goto port .idle, [])
    | _ => .ok (s, [])
  | .sweep => .ok (s.sweep, [])
  | .clock timeNow => .ok ({ s with timeNow := timeNow }, [])

/-- The records that an event reads or writes. -/
def accesses (s : Shared) : SharedEvent → List RecordPtr
  | .update port => match s.calls port with
    | .update _ _ p => [p]
    | _ => []
  | .read port => match s.calls port with
    | .read p => [p]
    | _ => []
  | .sweep => s.switchMacAddrTable.entries.map (·.2)
  | _ => []

/-- The switch after `InitSwitch`. -/
def init (timeNow : UInt32) : Shared := ⟨∅, ∅, timeNow, fun _ => .idle⟩

/-! ## What is claimed, and when it holds -/

/-- Every allocated record is referenced by exactly one entry, the one of its own address; this is
the address in the record, once the call that allocated it has written it. -/
def Referenced (s : Shared) : Prop :=
  ∀ p r, s.records.lookup p = some r →
    s.switchMacAddrTable.lookup r.own = some p ∧
    (∀ d, s.switchMacAddrTable.lookup d = some p → d = r.own) ∧
    (r.contents.macAddr = r.own ∨ ∃ port dst, s.calls port = .update r.own dst p)

/-- Before the event the records are referenced, and the event accesses allocated records only. -/
structure Safe (s : Shared) (e : SharedEvent) : Prop where
  referenced : s.Referenced
  allocated : ∀ p ∈ s.accesses e, (s.records.lookup p).isSome

/-- A call has looked the record up and is not done with it. -/
def InHands (s : Shared) (p : RecordPtr) : Prop :=
  ∃ port, (∃ src dst, s.calls port = .update src dst p) ∨ s.calls port = .read p

/-- An insertion finds no entry of its source. A round of the ageing task finds no record expired
that a call has in its hands. -/
def Quiet (s : Shared) : SharedEvent → Prop
  | .insert port _ _ => ∀ src dst, s.calls port = .insert src dst →
    s.switchMacAddrTable.lookup src = none
  | .sweep => ∀ p r, s.InHands p → s.records.lookup p = some r → ¬ s.Expired r
  | _ => True

/-! ## The invariant -/

variable {s s' : Shared}

/-- The table and the allocated records agree, and the pointers in the hands of the calls are
allocated. -/
structure Inv (s : Shared) : Prop where
  table_iff : ∀ d p, s.switchMacAddrTable.lookup d = some p ↔
    ∃ r, s.records.lookup p = some r ∧ r.own = d
  updating : ∀ port src dst p, s.calls port = .update src dst p →
    ∃ r, s.records.lookup p = some r ∧ r.own = src
  reading : ∀ port p, s.calls port = .read p → ∃ r, s.records.lookup p = some r
  written : ∀ p r, s.records.lookup p = some r →
    r.contents.macAddr = r.own ∨ ∃ port dst, s.calls port = .update r.own dst p

theorem Inv.referenced (hs : s.Inv) : s.Referenced := by
  intro p r hr
  refine ⟨(hs.table_iff _ p).mpr ⟨r, hr, rfl⟩, fun d hd => ?_, hs.written p r hr⟩
  obtain ⟨r', hr', rfl⟩ := (hs.table_iff d p).mp hd
  rw [hr] at hr'
  cases hr'
  rfl

theorem Inv.allocated (hs : s.Inv) (e : SharedEvent) :
    ∀ p ∈ s.accesses e, (s.records.lookup p).isSome := by
  intro p hp
  have hsome : (∃ r, s.records.lookup p = some r) → (s.records.lookup p).isSome :=
    fun ⟨r, hr⟩ => by rw [hr]; rfl
  unfold accesses at hp
  split at hp
  · split at hp
    · rename_i hcall
      obtain rfl := List.mem_singleton.mp hp
      obtain ⟨r, hr, -⟩ := hs.updating _ _ _ _ hcall
      exact hsome ⟨r, hr⟩
    · cases hp
  · split at hp
    · rename_i hcall
      obtain rfl := List.mem_singleton.mp hp
      exact hsome (hs.reading _ _ hcall)
    · cases hp
  · obtain ⟨⟨d, q⟩, he, rfl⟩ := List.mem_map.mp hp
    obtain ⟨r, hr, -⟩ := (hs.table_iff d q).mp (AList.mem_lookup_iff.mpr he)
    exact hsome ⟨r, hr⟩
  · cases hp

/-- A call goes on with pointers that are allocated, and leaves no record unwritten. -/
theorem Inv.goto (hs : s.Inv) {call : Call}
    (hleft : ∀ src dst p, s.calls port = .update src dst p → ∀ r, s.records.lookup p = some r →
      r.contents.macAddr = r.own)
    (hupdate : ∀ src dst p, call = .update src dst p →
      ∃ r, s.records.lookup p = some r ∧ r.own = src)
    (hread : ∀ p, call = .read p → ∃ r, s.records.lookup p = some r) :
    (s.goto port call).Inv where
  table_iff := hs.table_iff
  updating := by
    intro port' src dst p h
    by_cases hport : port' = port
    · rw [hport, goto_calls_self] at h
      exact hupdate src dst p h
    · rw [goto_calls_ne hport] at h
      exact hs.updating port' src dst p h
  reading := by
    intro port' p h
    by_cases hport : port' = port
    · rw [hport, goto_calls_self] at h
      exact hread p h
    · rw [goto_calls_ne hport] at h
      exact hs.reading port' p h
  written := by
    intro p r hr
    rcases hs.written p r hr with hown | ⟨port', dst, hcall⟩
    · exact .inl hown
    · by_cases hport : port' = port
      · exact .inl (hleft _ _ p (hport ▸ hcall) r hr)
      · refine .inr ⟨port', dst, ?_⟩
        rw [goto_calls_ne hport]
        exact hcall

/-- A call that has no record to write goes on. -/
theorem Inv.leave (hs : s.Inv) {call : Call} (hcall : ∀ src dst p, s.calls port ≠ .update src dst p)
    (hupdate : ∀ src dst p, call = .update src dst p →
      ∃ r, s.records.lookup p = some r ∧ r.own = src)
    (hread : ∀ p, call = .read p → ∃ r, s.records.lookup p = some r) : (s.goto port call).Inv :=
  hs.goto (fun src dst p h => absurd h (hcall src dst p)) hupdate hread

/-- A new record for an address without an entry, in the hands of the call that inserts it. -/
theorem Inv.inserted (hs : s.Inv) {dst : MacAddr} (contents : SwitchMacAddr)
    (hcall : s.calls port = .insert src dst) (hsrc : s.switchMacAddrTable.lookup src = none)
    (hp : s.records.lookup p = none) :
    ((s.addRecord src p contents).goto port (.update src dst p)).Inv := by
  have hrec : ∀ q r, (s.records.insert p ⟨src, contents⟩).lookup q = some r ↔
      q = p ∧ r = ⟨src, contents⟩ ∨ s.records.lookup q = some r := by
    intro q r
    rw [Table.lookup_insert_eq_ite]
    by_cases hq : q = p
    · subst hq
      rw [if_pos rfl, hp]
      simp [eq_comm]
    · simp [hq]
  have hother : ∀ {port' call}, update s.calls port (.update src dst p) port' = call →
      port' = port ∧ call = .update src dst p ∨ s.calls port' = call := by
    intro port' call h
    by_cases hport : port' = port
    · rw [hport, update_self] at h
      exact .inl ⟨hport, h.symm⟩
    · rw [update_of_ne hport] at h
      exact .inr h
  constructor
  · intro d q
    simp only [Shared.goto, addRecord, hrec]
    rw [Table.lookup_insert_eq_ite]
    constructor
    · intro h
      split at h
      · rename_i hd
        cases h
        exact ⟨_, .inl ⟨rfl, rfl⟩, hd.symm⟩
      · obtain ⟨r, hr, hown⟩ := (hs.table_iff d q).mp h
        exact ⟨r, .inr hr, hown⟩
    · rintro ⟨r, ⟨rfl, rfl⟩ | hr, rfl⟩
      · rw [if_pos rfl]
      · have hlook := (hs.table_iff r.own q).mpr ⟨r, hr, rfl⟩
        rw [if_neg, hlook]
        intro hd
        rw [hd, hsrc] at hlook
        cases hlook
  · intro port' src' dst' q h
    simp only [Shared.goto, addRecord, hrec]
    rcases hother h with ⟨-, heq⟩ | hold
    · cases heq
      exact ⟨_, .inl ⟨rfl, rfl⟩, rfl⟩
    · obtain ⟨r, hr, hown⟩ := hs.updating port' src' dst' q hold
      exact ⟨r, .inr hr, hown⟩
  · intro port' q h
    simp only [Shared.goto, addRecord, hrec]
    rcases hother h with ⟨-, heq⟩ | hold
    · cases heq
    · obtain ⟨r, hr⟩ := hs.reading port' q hold
      exact ⟨r, .inr hr⟩
  · intro q r hr
    rcases (hrec q r).mp hr with ⟨rfl, rfl⟩ | hr
    · exact .inr ⟨port, dst, update_self _ _ _⟩
    · rcases hs.written q r hr with hown | ⟨port', dst', hold⟩
      · exact .inl hown
      · refine .inr ⟨port', dst', ?_⟩
        have hport : port' ≠ port := by
          rintro rfl
          rw [hcall] at hold
          cases hold
        exact (update_of_ne hport _ _).trans hold

/-- The writes of a call into the record of its source. -/
theorem Inv.updated (hs : s.Inv) {r : Record} (hr : s.records.lookup p = some r)
    (netIf : StaticString64) (t : UInt32) :
    Inv { s with records := s.records.insert p ⟨r.own, ⟨r.own, netIf, t⟩⟩ } := by
  have hrec : ∀ q r', (s.records.insert p ⟨r.own, ⟨r.own, netIf, t⟩⟩).lookup q = some r' ↔
      q = p ∧ r' = ⟨r.own, ⟨r.own, netIf, t⟩⟩ ∨ q ≠ p ∧ s.records.lookup q = some r' := by
    intro q r'
    rw [Table.lookup_insert_eq_ite]
    by_cases hq : q = p
    · simp [hq, eq_comm]
    · simp [hq]
  -- the same records are allocated, with the same owners
  have hown : ∀ q d, (∃ r', (s.records.insert p ⟨r.own, ⟨r.own, netIf, t⟩⟩).lookup q = some r' ∧
      r'.own = d) ↔ ∃ r', s.records.lookup q = some r' ∧ r'.own = d := by
    intro q d
    simp only [hrec]
    constructor
    · rintro ⟨r', ⟨rfl, rfl⟩ | ⟨-, hr'⟩, rfl⟩
      · exact ⟨r, hr, rfl⟩
      · exact ⟨r', hr', rfl⟩
    · rintro ⟨r', hr', rfl⟩
      by_cases hq : q = p
      · subst hq
        rw [hr] at hr'
        cases hr'
        exact ⟨_, .inl ⟨rfl, rfl⟩, rfl⟩
      · exact ⟨r', .inr ⟨hq, hr'⟩, rfl⟩
  constructor
  · intro d q
    exact (hs.table_iff d q).trans (hown q d).symm
  · intro port src dst q h
    exact (hown q src).mpr (hs.updating port src dst q h)
  · intro port q h
    obtain ⟨r', hr'⟩ := hs.reading port q h
    obtain ⟨r'', hr'', -⟩ := (hown q _).mpr ⟨r', hr', rfl⟩
    exact ⟨r'', hr''⟩
  · intro q r' hr'
    rcases (hrec q r').mp hr' with ⟨-, rfl⟩ | ⟨-, hr'⟩
    · exact .inl rfl
    · exact hs.written q r' hr'

/-! ## The ageing task -/

/-- No record that a call has in its hands is expired. -/
def HandsFresh (s : Shared) : Prop :=
  ∀ p r, s.InHands p → s.records.lookup p = some r → ¬ s.Expired r

/-- The deletion of an expired entry, which no call has in its hands. -/
theorem Inv.sweepEntry (hs : s.Inv) (hfresh : s.HandsFresh) {d : MacAddr}
    (hd : s.switchMacAddrTable.lookup d = some p) :
    (s.sweepEntry ⟨d, p⟩).Inv ∧ (s.sweepEntry ⟨d, p⟩).HandsFresh ∧
      ∀ d', d' ≠ d →
        (s.sweepEntry ⟨d, p⟩).switchMacAddrTable.lookup d' = s.switchMacAddrTable.lookup d' := by
  obtain ⟨r, hr, rfl⟩ := (hs.table_iff d p).mp hd
  unfold Shared.sweepEntry
  rw [hr]
  dsimp only
  split
  · rename_i hexpired
    have hhands : ∀ q, s.InHands q → q ≠ p := by
      rintro q hq rfl
      exact hfresh q r hq hr hexpired
    have hrec : ∀ q r', (s.records.erase p).lookup q = some r' ↔
        q ≠ p ∧ s.records.lookup q = some r' := by
      intro q r'
      rw [Table.lookup_erase_eq_ite]
      by_cases hq : q = p <;> simp [hq]
    refine ⟨⟨?_, ?_, ?_, ?_⟩, ?_, ?_⟩
    · intro d' q
      simp only [hrec]
      rw [Table.lookup_erase_eq_ite]
      constructor
      · intro h
        split at h
        · cases h
        · rename_i hd'
          obtain ⟨r', hr', rfl⟩ := (hs.table_iff d' q).mp h
          refine ⟨r', ⟨?_, hr'⟩, rfl⟩
          rintro rfl
          rw [hr] at hr'
          cases hr'
          exact hd' rfl
      · rintro ⟨r', ⟨hq, hr'⟩, rfl⟩
        have hlook := (hs.table_iff r'.own q).mpr ⟨r', hr', rfl⟩
        rw [if_neg, hlook]
        intro heq
        rw [heq, hd] at hlook
        cases hlook
        exact hq rfl
    · intro port src dst q h
      obtain ⟨r', hr', hown⟩ := hs.updating port src dst q h
      exact ⟨r', (hrec q r').mpr ⟨hhands q ⟨port, .inl ⟨src, dst, h⟩⟩, hr'⟩, hown⟩
    · intro port q h
      obtain ⟨r', hr'⟩ := hs.reading port q h
      exact ⟨r', (hrec q r').mpr ⟨hhands q ⟨port, .inr h⟩, hr'⟩⟩
    · intro q r' hr'
      exact hs.written q r' ((hrec q r').mp hr').2
    · intro q r' hq hr'
      exact hfresh q r' hq ((hrec q r').mp hr').2
    · intro d' hne
      exact AList.lookup_erase_ne hne
  · exact ⟨hs, hfresh, fun _ _ => rfl⟩

/-- The loop of the ageing task. The entries that it has not visited yet are still in the table. -/
theorem Inv.sweepEntries (es : List (Σ _ : MacAddr, RecordPtr)) (hnodup : es.NodupKeys)
    (hs : s.Inv) (hfresh : s.HandsFresh)
    (hmem : ∀ d p, ⟨d, p⟩ ∈ es → s.switchMacAddrTable.lookup d = some p) :
    (es.foldl Shared.sweepEntry s).Inv := by
  induction es generalizing s with
  | nil => exact hs
  | cons e es ih =>
    obtain ⟨d, p⟩ := e
    obtain ⟨hnotin, hrest⟩ := List.nodupKeys_cons.mp hnodup
    obtain ⟨hs', hfresh', hlook⟩ := hs.sweepEntry hfresh (hmem d p List.mem_cons_self)
    refine ih hrest hs' hfresh' fun d' p' h => ?_
    rw [hlook]
    · exact hmem d' p' (List.mem_cons_of_mem _ h)
    · rintro rfl
      have hin := List.mem_keys_of_mem h
      exact hnotin hin

/-! ## Runs -/

theorem Inv.step (hs : s.Inv) {e : SharedEvent} (he : s.Quiet e) {out : List Unit}
    (h : s.step e = .ok (s', out)) : s'.Inv := by
  cases e with
  | findSrc port src dst =>
    simp only [Shared.step] at h
    split at h
    · cases h
      exact hs
    rename_i hidle
    have hcall : s.calls port = .idle := by
      by_contra hne
      exact hidle (.inl hne)
    split at h
    · rename_i p hp
      cases h
      refine hs.leave (by simp [hcall]) ?_ nofun
      rintro _ _ _ ⟨⟩
      exact (hs.table_iff src p).mp hp
    · cases h
      exact hs.leave (by simp [hcall]) nofun nofun
  | insert port memory setOk =>
    simp only [Shared.step] at h
    split at h
    · rename_i src dst hcall
      have hsrc := he src dst hcall
      have hfail : (s.goto port .idle).Inv := hs.leave (by simp [hcall]) nofun nofun
      cases memory with
      | none =>
        cases h
        exact hfail
      | some m =>
        obtain ⟨p, contents⟩ := m
        unfold insertRecord at h
        dsimp only at h
        by_cases hbad : (s.records.lookup p).isSome ∨ setOk = false
        · rw [if_pos hbad] at h
          cases h
          exact hfail
        · rw [if_neg hbad] at h
          cases h
          refine hs.inserted contents hcall hsrc ?_
          exact Option.not_isSome_iff_eq_none.mp fun hsome => hbad (.inl hsome)
    · cases h
      exact hs
  | update port =>
    simp only [Shared.step] at h
    split at h
    · rename_i src dst p hcall
      obtain ⟨r, hr, rfl⟩ := hs.updating port src dst p hcall
      obtain ⟨s₁, hs₁, heq⟩ := map_eq_ok.mp h
      cases heq
      unfold updateRecord at hs₁
      rw [hr] at hs₁
      obtain ⟨netIf, -, rfl⟩ := map_eq_ok.mp hs₁
      refine (hs.updated hr netIf s.timeNow).goto ?_ nofun nofun
      intro src' dst' p' hcall' r' hr'
      have hcall'' : s.calls port = .update src' dst' p' := hcall'
      rw [hcall] at hcall''
      cases hcall''
      rw [AList.lookup_insert] at hr'
      cases hr'
      rfl
    · cases h
      exact hs
  | findDst port =>
    simp only [Shared.step] at h
    split at h
    · rename_i dst hcall
      split at h
      · rename_i p hp
        cases h
        refine hs.leave (by simp [hcall]) nofun ?_
        rintro _ ⟨⟩
        obtain ⟨r, hr, -⟩ := (hs.table_iff dst p).mp hp
        exact ⟨r, hr⟩
      · cases h
        exact hs.leave (by simp [hcall]) nofun nofun
    · cases h
      exact hs
  | read port =>
    simp only [Shared.step] at h
    split at h
    · rename_i p hcall
      cases h
      exact hs.leave (by simp [hcall]) nofun nofun
    · cases h
      exact hs
  | sweep =>
    cases h
    exact hs.sweepEntries _ s.switchMacAddrTable.nodupKeys he fun _ _ h =>
      AList.mem_lookup_iff.mpr h
  | clock t =>
    cases h
    exact ⟨hs.table_iff, hs.updating, hs.reading, hs.written⟩

theorem inv_init (timeNow : UInt32) : (init timeNow).Inv := by
  refine ⟨fun d p => ⟨nofun, ?_⟩, nofun, nofun, nofun⟩
  rintro ⟨r, ⟨⟩, -⟩

/-- **The records of a switch.** In every interleaving of quiet events every allocated record is
referenced by exactly one entry, under its own address, in each state of the run, and no event
accesses a record that is not allocated. -/
theorem records_safe (timeNow : UInt32) {es : List SharedEvent}
    (hquiet : EachRound Shared.step Quiet (init timeNow) es) :
    EachRound Shared.step Safe (init timeNow) es ∧
      ∀ s, RunsIn Shared.step (fun _ => True) (init timeNow) es s → s.Referenced := by
  constructor
  · exact hquiet.of_invariant (inv_init timeNow) (fun s e s₁ out hs he h => hs.step he h)
      fun s e hs _ => ⟨hs.referenced, hs.allocated e⟩
  · intro s hrun
    exact (hrun.invariant_of_rounds hquiet (inv_init timeNow)
      fun s e s₁ out hs he h => hs.step he h).referenced

/-- Memory with zeros in it. -/
def blank : SwitchMacAddr := ⟨.replicate 6 0, .replicate 64 0, 0⟩

/-- A host on the port `a` is learned, and its record ages out. -/
theorem records_safe_aged :
    ∃ s, RunsIn Shared.step (fun _ => True) (init 1000)
        [.findSrc [0x61] #v[2, 0, 0, 0, 0, 1] #v[2, 0, 0, 0, 0, 2],
          .insert [0x61] (some (0, blank)) true, .update [0x61], .findDst [0x61],
          .clock 1301, .sweep] s ∧ s.Referenced ∧ s.records.lookup 0 = none := by
  have hquiet : EachRound Shared.step Quiet (init 1000)
      [.findSrc [0x61] #v[2, 0, 0, 0, 0, 1] #v[2, 0, 0, 0, 0, 2],
        .insert [0x61] (some (0, blank)) true, .update [0x61], .findDst [0x61], .clock 1301,
        .sweep] := by
    refine ⟨trivial, ?_⟩
    rintro s₁ out ⟨⟩
    refine ⟨?_, ?_⟩
    · rintro src dst ⟨⟩
      rfl
    rintro s₂ out ⟨⟩
    refine ⟨trivial, ?_⟩
    rintro s₃ out ⟨⟩
    refine ⟨trivial, ?_⟩
    rintro s₄ out ⟨⟩
    refine ⟨trivial, ?_⟩
    rintro s₅ out ⟨⟩
    refine ⟨?_, fun _ _ _ => trivial⟩
    -- the call is over, and no other has begun
    rintro p r ⟨port, hcall⟩
    exfalso
    simp [Shared.goto, addRecord, init] at hcall
  have hrun : ∃ s, RunsIn Shared.step (fun _ => True) (init 1000)
      [.findSrc [0x61] #v[2, 0, 0, 0, 0, 1] #v[2, 0, 0, 0, 0, 2],
        .insert [0x61] (some (0, blank)) true, .update [0x61], .findDst [0x61], .clock 1301,
        .sweep] s ∧ s.records.lookup 0 = none :=
    ⟨_, ⟨trivial, _, _, rfl, trivial, _, _, rfl, trivial, _, _, rfl, trivial, _, _, rfl,
      trivial, _, _, rfl, trivial, _, _, rfl, trivial, rfl⟩, rfl⟩
  obtain ⟨s, hrun, hnone⟩ := hrun
  exact ⟨s, hrun, (records_safe 1000 hquiet).2 s hrun, hnone⟩

/-- Two calls that both miss a source insert a record each, and the first one is lost. A round of
the ageing task between the insertion and the writes frees the record that is written then. -/
theorem records_disturbed :
    (∃ s, RunsIn Shared.step (fun _ => True) (init 1000)
        [.findSrc [0x61] #v[2, 0, 0, 0, 0, 1] #v[2, 0, 0, 0, 0, 2],
          .findSrc [0x62] #v[2, 0, 0, 0, 0, 1] #v[2, 0, 0, 0, 0, 2],
          .insert [0x61] (some (0, blank)) true, .insert [0x62] (some (1, blank)) true] s ∧
      ¬ s.Referenced) ∧
    (∃ s, RunsIn Shared.step (fun _ => True) (init 1000)
        [.findSrc [0x61] #v[2, 0, 0, 0, 0, 1] #v[2, 0, 0, 0, 0, 2],
          .insert [0x61] (some (0, blank)) true, .sweep] s ∧
      0 ∈ s.accesses (.update [0x61]) ∧ s.records.lookup 0 = none) := by
  constructor
  · refine ⟨_, ⟨trivial, _, _, rfl, trivial, _, _, rfl, trivial, _, _, rfl, trivial, _, _, rfl,
      trivial, rfl⟩, fun h => ?_⟩
    obtain ⟨hentry, -⟩ := h 0 ⟨#v[2, 0, 0, 0, 0, 1], blank⟩ rfl
    exact absurd hentry (by decide)
  · exact ⟨_, ⟨trivial, _, _, rfl, trivial, _, _, rfl, trivial, _, _, rfl, trivial, rfl⟩,
      List.mem_singleton_self _, rfl⟩

/-! ## A call that is not interrupted -/

/-- The records by address: the table of the sequential model. -/
def Views (s : Shared) (table : Table MacAddr SwitchMacAddr) : Prop :=
  ∀ d, table.lookup d =
    (s.switchMacAddrTable.lookup d).bind fun p => (s.records.lookup p).map (·.contents)

section

variable {table : Table MacAddr SwitchMacAddr} {sw : Switch} {r : Record} {dst : MacAddr}
  {netIf : StaticString64}

/-- A new record for `src`, or new contents of its record. -/
theorem Views.insert (hs : s.Inv) (hviews : s.Views table)
    (hp : ∀ r, s.records.lookup p = some r → r.own = src) (contents : SwitchMacAddr)
    (calls : Bytes → Call) :
    Views { s.addRecord src p contents with calls := calls } (table.insert src contents) := by
  intro d
  rw [Table.lookup_insert_eq_ite]
  unfold addRecord
  dsimp only
  rw [Table.lookup_insert_eq_ite]
  by_cases hd : d = src
  · rw [if_pos hd, if_pos hd, Option.bind_some, AList.lookup_insert, Option.map_some]
  · rw [if_neg hd, if_neg hd, hviews d]
    cases hq : s.switchMacAddrTable.lookup d with
    | none => rfl
    | some q =>
      have hne : q ≠ p := by
        rintro rfl
        obtain ⟨r, hr, rfl⟩ := (hs.table_iff d q).mp hq
        exact hd (hp r hr)
      rw [Option.bind_some, Option.bind_some, AList.lookup_insert_ne hne]

/-- The writes of a call into the record of its source. -/
theorem Views.update (hs : s.Inv) (hviews : s.Views table) (hr : s.records.lookup p = some r)
    (hown : r.own = src) (hset : r.contents.netIf.set port = .ok netIf) :
    ∃ s', s.updateRecord port src p = .ok s' ∧
      s'.Views (table.insert src ⟨src, netIf, s.timeNow⟩) := by
  subst hown
  set contents : SwitchMacAddr := ⟨r.own, netIf, s.timeNow⟩ with hcontents
  refine ⟨{ s with records := s.records.insert p ⟨r.own, contents⟩ }, ?_, ?_⟩
  · rw [updateRecord, hr]
    dsimp only
    rw [hset]
    rfl
  have hinsert := hviews.insert hs
    (fun r' hr' => by rw [hr] at hr'; cases hr'; rfl) contents s.calls
  -- the entry of the source has this pointer already
  have hlook := (hs.table_iff r.own p).mpr ⟨r, hr, rfl⟩
  intro d
  rw [hinsert d]
  unfold addRecord
  dsimp only
  rw [Table.lookup_insert_eq_ite]
  split
  · rename_i hd
    rw [hd, hlook]
  · rfl

/-- The last of the sections that record the source. -/
theorem Views.last_section (hs : s.Inv) (hviews : s.Views table)
    (hcall : s.calls port = .update src dst p) (hr : s.records.lookup p = some r)
    (hset : r.contents.netIf.set port = .ok netIf) (htime : sw.timeNow = s.timeNow)
    (htable : ∀ d ≠ src, table.lookup d = sw.switchMacAddrTable.lookup d) :
    ∃ s', s.step (.update port) = .ok (s', []) ∧ s'.calls port = .findDst dst ∧
      s'.Views (sw.learned src netIf).switchMacAddrTable := by
  obtain ⟨r', hr', hown⟩ := hs.updating port src dst p hcall
  cases hr.symm.trans hr'
  obtain ⟨s', hupdate, hviews'⟩ := hviews.update hs hr hown hset
  refine ⟨s'.goto port (.findDst dst), ?_, goto_calls_self _ _ _, fun d => ?_⟩
  · simp only [Shared.step, hcall]
    rw [hupdate]
    rfl
  · have hd := hviews' d
    rw [Table.lookup_insert_eq_ite] at hd
    rw [Switch.learned, Table.lookup_insert_eq_ite, htime]
    refine Eq.trans ?_ hd
    split
    · rfl
    · exact (htable d ‹_›).symm

end

/-- What the sequential model does with a frame whose source gets the record `r`. -/
theorem handleEthernet_eq {sw : Switch} {cfg : SwitchPortConfig} {alloc : LearnAlloc} {eth : EthFrm}
    {r : SwitchMacAddr} {netIf : StaticString64} (hsrc : ¬ IsGroup eth.srcMac)
    (hr : sw.learnRecord alloc eth.srcMac = some r) (hset : r.netIf.set cfg.name = .ok netIf) :
    sw.handleEthernet cfg alloc eth = ((sw.learned eth.srcMac netIf).forward cfg eth).map fun txs =>
      (sw.learned eth.srcMac netIf, txs) := by
  rw [handleEthernet, if_neg hsrc, hr]
  dsimp only
  rw [hset]
  show ((sw.learned eth.srcMac netIf).forward cfg eth >>= _) = _
  cases (sw.learned eth.srcMac netIf).forward cfg eth <;> rfl

/-- **The sequential model.** The first sections of a call on a port, without other events between
them, record the source as `Switch.handleEthernet` does before it forwards the frame. -/
theorem uninterrupted_learned (hs : s.Inv) {sw : Switch} (hviews : s.Views sw.switchMacAddrTable)
    (htime : sw.timeNow = s.timeNow) (hport : port ≠ []) (hidle : s.calls port = .idle)
    (hsrc : ¬ IsGroup src) (dst : MacAddr) (hp : s.records.lookup p = none)
    (contents : SwitchMacAddr) :
    ∃ s' netIf, RunsIn Shared.step (fun _ => True) s
        [.findSrc port src dst, .insert port (some (p, contents)) true, .update port] s' ∧
      s'.calls port = .findDst dst ∧ netIf.get = StaticString64.stored port ∧
      s'.Views (sw.learned src netIf).switchMacAddrTable ∧
      ∀ (cfg : SwitchPortConfig) (eth : EthFrm), cfg.name = port → eth.srcMac = src →
        sw.handleEthernet cfg ⟨some contents, true⟩ eth =
          ((sw.learned src netIf).forward cfg eth).map fun txs => (sw.learned src netIf, txs) := by
  have hstart : ¬ (s.calls port ≠ .idle ∨ IsGroup src) :=
    not_or.mpr ⟨not_not.mpr hidle, hsrc⟩
  -- after two sections the record of the source is there, with an entry
  suffices ∃ s₁ s₂ q r table, s.step (.findSrc port src dst) = .ok (s₁, []) ∧
      s₁.step (.insert port (some (p, contents)) true) = .ok (s₂, []) ∧ s₂.Inv ∧ s₂.Views table ∧
      s₂.calls port = .update src dst q ∧ s₂.records.lookup q = some r ∧
      sw.learnRecord ⟨some contents, true⟩ src = some r.contents ∧ s₂.timeNow = s.timeNow ∧
      ∀ d ≠ src, table.lookup d = sw.switchMacAddrTable.lookup d by
    obtain ⟨s₁, s₂, q, r, table, hfirst, hsecond, hs₂, hviews₂, hcall, hr, hlearn, htime₂,
        htable⟩ :=
      this
    obtain ⟨netIf, hset, hget⟩ := StaticString64.get_set r.contents.netIf hport
    obtain ⟨s', hthird, hcall', hviews'⟩ :=
      hviews₂.last_section hs₂ hcall hr hset (htime.trans htime₂.symm) htable
    refine ⟨s', netIf,
      ⟨trivial, _, _, hfirst, trivial, _, _, hsecond, trivial, _, _, hthird, trivial,
      rfl⟩, hcall', hget, hviews', ?_⟩
    rintro cfg eth rfl rfl
    exact handleEthernet_eq hsrc hlearn hset
  cases hlook : s.switchMacAddrTable.lookup src with
  | none =>
    have hfirst : s.step (.findSrc port src dst) = .ok (s.goto port (.insert src dst), []) := by
      simp only [Shared.step, if_neg hstart, hlook]
    have hs₁ : (s.goto port (.insert src dst)).Inv :=
      hs.step (e := .findSrc port src dst) trivial hfirst
    have hviews₁ : (s.goto port (.insert src dst)).Views sw.switchMacAddrTable := hviews
    have hfree : (s.goto port (.insert src dst)).records.lookup p = none := hp
    have hlearn : sw.learnRecord ⟨some contents, true⟩ src = some contents := by
      rw [learnRecord, hviews src, hlook]
      rfl
    refine ⟨_, ((s.goto port (.insert src dst)).addRecord src p contents).goto port
      (.update src dst p), p, ⟨src, contents⟩, _, hfirst,
        by simp [Shared.step, insertRecord, hfree],
      hs₁.inserted contents (goto_calls_self s port _) hlook hp,
      hviews₁.insert hs₁ (fun r hr => by rw [hfree] at hr; cases hr) contents _,
      goto_calls_self _ _ _, AList.lookup_insert s.records, hlearn, rfl,
      fun d hd => AList.lookup_insert_ne hd⟩
  | some q =>
    have hfirst : s.step (.findSrc port src dst) = .ok (s.goto port (.update src dst q), []) := by
      simp only [Shared.step, if_neg hstart, hlook]
    obtain ⟨r, hr, -⟩ := (hs.table_iff src q).mp hlook
    have hlearn : sw.learnRecord ⟨some contents, true⟩ src = some r.contents := by
      rw [learnRecord, hviews src, hlook, Option.bind_some, hr]
      rfl
    exact ⟨_, _, q, r, _, hfirst, by simp only [Shared.step, goto_calls_self],
      hs.step (e := .findSrc port src dst) trivial hfirst, hviews, goto_calls_self _ _ _,
        hr, hlearn,
      rfl, fun _ _ => rfl⟩

/-- The address of a host. -/
def hostAddr (n : UInt8) : MacAddr := #[2, 0, 0, 0, 0, n].toVector

/-- The record of the host 2, on the port `b`. -/
def hostB : SwitchMacAddr :=
  ⟨hostAddr 2, copyFront (.replicate 64 1) [0x62] 1, 1000⟩

/-- The switch has learned the host 2. -/
def knowsB : Shared where
  switchMacAddrTable := (∅ : Table MacAddr RecordPtr).insert (hostAddr 2) 0
  records := (∅ : Table RecordPtr Record).insert 0 ⟨hostAddr 2, hostB⟩
  timeNow := 1200
  calls := fun _ => .idle

theorem inv_knowsB : knowsB.Inv where
  table_iff := fun d p => by
    unfold knowsB
    rw [Table.lookup_insert_eq_ite, Table.lookup_insert_eq_ite]
    constructor
    · intro h
      split at h
      · rename_i hd
        cases h
        exact ⟨_, if_pos rfl, hd.symm⟩
      · cases h
    · rintro ⟨r, h, rfl⟩
      split at h
      · rename_i hp
        cases h
        rw [if_pos rfl, hp]
      · cases h
  updating := fun _ _ _ _ h => by cases h
  reading := fun _ _ h => by cases h
  written := fun p r h => by
    unfold knowsB at h
    rw [Table.lookup_insert_eq_ite] at h
    split at h
    · cases h
      exact .inl rfl
    · cases h

/-- The host 1 on the port `a` sends a frame to the host 2. The sections of its call leave the table
that the sequential model has after it, which sends the frame on the port `b`. -/
theorem uninterrupted_learned_first :
    let sw : Switch := { initSwitch [⟨[0x61], 1⟩, ⟨[0x62], 1⟩] 1200 with
      switchMacAddrTable := (∅ : Table MacAddr SwitchMacAddr).insert (hostAddr 2) hostB }
    let eth : EthFrm := ⟨.replicate 46 0, hostAddr 2, hostAddr 1, 0x800⟩
    ∃ s netIf, RunsIn Shared.step (fun _ => True) knowsB
        [.findSrc [0x61] (hostAddr 1) (hostAddr 2), .insert [0x61] (some (1, blank)) true,
          .update [0x61]] s ∧
      s.calls [0x61] = .findDst (hostAddr 2) ∧ netIf.get = [0x61] ∧
      s.Views (sw.learned (hostAddr 1) netIf).switchMacAddrTable ∧
      sw.handleEthernet ⟨[0x61], 1⟩ ⟨some blank, true⟩ eth =
        .ok (sw.learned (hostAddr 1) netIf, txEthernet ⟨[0x62], 1⟩ eth) := by
  intro sw eth
  have hviews : knowsB.Views sw.switchMacAddrTable := by
    intro d
    show ((∅ : Table MacAddr SwitchMacAddr).insert (hostAddr 2) hostB).lookup d = _
    unfold knowsB
    rw [Table.lookup_insert_eq_ite, Table.lookup_insert_eq_ite]
    split <;> rfl
  obtain ⟨s, netIf, hrun, hcall, hget, hviews', hseq⟩ := uninterrupted_learned (p := 1) inv_knowsB
    hviews rfl (List.cons_ne_nil 0x61 []) rfl (show ¬ IsGroup (hostAddr 1) by decide)
      (hostAddr 2) rfl
    blank
  refine ⟨s, netIf, hrun, hcall, hget, hviews', ?_⟩
  rw [hseq ⟨[0x61], 1⟩ eth rfl rfl]
  have hdst : (sw.learned (hostAddr 1) netIf).switchMacAddrTable.lookup eth.dstMac =
      some hostB := by
    show ((∅ : Table MacAddr SwitchMacAddr).insert (hostAddr 2) hostB |>.insert (hostAddr 1)
      _).lookup (hostAddr 2) = _
    rw [AList.lookup_insert_ne (by decide), AList.lookup_insert]
  have hport : (sw.learned (hostAddr 1) netIf).switchPortMap.lookup hostB.netIf.get =
      some ⟨[0x62], 1⟩ := by
    show sw.switchPortMap.lookup _ = _
    decide +kernel
  rw [forward, hdst]
  dsimp only
  rw [hport]
  rfl

end Shared

end Switch

end Halo
