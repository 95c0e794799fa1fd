import Halo.Kcp.Session

/-!
# Which datagrams move a session to another address

A datagram carries the id of a session in its KCP header, or as the two halves of an Enet control
packet (`CarriesId`). The table of a listener files every session under its own id (`Filed`), so
what the listener does to the address of a session it does for a datagram with the session's id
(`listenerStep_changes`). A client loop does not look at the id.

* `moved_by_own_iff`: in a run, every datagram that moves a session carries its id exactly when the
  client session, if the endpoint is one, gets from other addresses only datagrams with its id.
* `moved_by_one_byte`: one byte from another address moves a client session.
-/

namespace Halo.Kcp

variable {κ : Type} (ops : KcpOps κ) (byteCheck : Bool)

/-- The datagram carries the id: in its KCP header, or in an Enet control packet. -/
def CarriesId (conv : UInt64) (data : Bytes) : Prop :=
  (ikcpOverhead byteCheck ≤ data.length ∧ le64 data = conv) ∨
    ∃ enet, parseEnet data = .ok enet ∧ rawConvOf enet.sessionId enet.conv = conv

/-! ## Listeners -/

namespace Listener

/-- The table files every session under its own id. -/
def Filed (l : Listener κ) : Prop :=
  ∀ conv n, l.sessions.lookup conv = some n → ∃ s, l.all[n]? = some s ∧ s.conv = conv

/-- What a step of a listener may change: no session is lost or gets another id, a session with
another address has the property `P`, and the table gets new entries only for their own ids. -/
structure Changes (P : UDPSession κ → Prop) (l l' : Listener κ) : Prop where
  kept : ∀ (n : Nat) (s : UDPSession κ), l.all[n]? = some s →
    ∃ s' : UDPSession κ, l'.all[n]? = some s' ∧ s'.conv = s.conv ∧ (s'.remote = s.remote ∨ P s)
  filed : ∀ (conv : UInt64) (n : Nat), l'.sessions.lookup conv = some n →
    l.sessions.lookup conv = some n ∨ ∃ s, l'.all[n]? = some s ∧ s.conv = conv

variable {ops byteCheck} {P : UDPSession κ → Prop} {l l' : Listener κ}

theorem Changes.filed_of (h : Changes P l l') (hl : l.Filed) : l'.Filed := by
  intro conv n hn
  rcases h.filed conv n hn with hold | hnew
  · obtain ⟨s, hs, rfl⟩ := hl conv n hold
    obtain ⟨s', hs', hconv, -⟩ := h.kept n s hs
    exact ⟨s', hs', hconv⟩
  · exact hnew

/-- A step that leaves the sessions and their table alone. -/
theorem Changes.of_eq (hall : l'.all = l.all) (hsessions : l'.sessions = l.sessions) :
    Changes P l l' where
  kept n s hs := ⟨s, by rw [hall, hs], rfl, .inl rfl⟩
  filed conv n hn := .inl (by rwa [hsessions] at hn)

theorem Changes.modify {n : Nat} {f : UDPSession κ → UDPSession κ}
    (hf : ∀ s, l.all[n]? = some s → (f s).conv = s.conv ∧ ((f s).remote = s.remote ∨ P s)) :
    Changes P l (l.modify n f) where
  kept m s hs := by
    have hget : (l.modify n f).all[m]? = if n = m then some (f s) else some s := by
      simp only [Listener.modify, List.getElem?_modify, hs]
      split <;> rfl
    by_cases hm : n = m
    · subst hm
      rw [if_pos rfl] at hget
      exact ⟨f s, hget, hf s hs⟩
    · rw [if_neg hm] at hget
      exact ⟨s, hget, rfl, .inl rfl⟩
  filed _ _ hn := .inl hn

theorem Changes.closeSession (n : Nat) (enetType : UInt32) :
    Changes P l (l.closeSession ops n enetType).1 := by
  unfold Listener.closeSession
  split
  · exact .of_eq rfl rfl
  rename_i s hs
  constructor
  · intro m s' hs'
    by_cases hm : n = m
    · subst hm
      obtain rfl : s = s' := Option.some.inj (hs.symm.trans hs')
      have hn : n < l.all.length := (List.getElem?_eq_some_iff.mp hs).1
      exact ⟨_, List.getElem?_set_self hn, by simp, .inl (by simp)⟩
    · exact ⟨s', (List.getElem?_set_ne hm).trans hs', rfl, .inl rfl⟩
  · intro conv m hm
    dsimp only at hm
    split at hm
    · exact .inl hm
    · rw [Table.lookup_erase_eq_ite] at hm
      split at hm
      · cases hm
      · exact .inl hm

theorem Changes.newSession (conv : UInt64) (data : Bytes) (addr : String) :
    Changes P l (l.newSession ops conv data addr) := by
  unfold Listener.newSession
  split
  · exact .of_eq rfl rfl
  dsimp only
  split
  · constructor
    · intro m s hs
      have hm : m < l.all.length := (List.getElem?_eq_some_iff.mp hs).1
      exact ⟨s, (List.getElem?_append_left hm).trans hs, rfl, .inl rfl⟩
    · intro conv' m hm
      rw [Table.lookup_insert_eq_ite] at hm
      split at hm
      · rename_i hconv
        cases hm
        exact .inr ⟨_, List.getElem?_concat_length, by simp [UDPSession.newUDPSession, hconv]⟩
      · exact .inl hm
  · exact .of_eq rfl rfl

theorem sessionInput_conv (s : UDPSession κ) (conv : UInt64) (data : Bytes) (addr : String) :
    (sessionInput ops s conv data addr).conv = s.conv := by
  unfold sessionInput
  split
  · rfl
  · dsimp only
    split <;> split <;> simp

/-- The listener gives a datagram to the session with its id, if there is one. -/
theorem packetInput_changes (hl : l.Filed) (data : Bytes) (addr : String) :
    Changes (fun s => CarriesId byteCheck s.conv data) l
      (l.packetInput ops byteCheck data addr) := by
  unfold packetInput
  split
  · split <;> exact .of_eq rfl rfl
  split
  · rename_i hlen
    split
    · rename_i n hn
      apply Changes.modify
      intro s hs
      obtain ⟨s', hs', hconv⟩ := hl _ _ hn
      obtain rfl : s = s' := Option.some.inj (hs.symm.trans hs')
      exact ⟨sessionInput_conv s _ data addr, .inr (.inl ⟨hlen, hconv.symm⟩)⟩
    · exact .newSession _ data addr
  · exact .of_eq rfl rfl

theorem handleEnet_changes (enetNotify : Enet) (conv now : UInt32) :
    Changes P l (l.handleEnet ops enetNotify conv now).1 := by
  unfold handleEnet
  split
  · unfold handleSyn
    split
    · exact .of_eq rfl rfl
    split <;> exact .of_eq rfl rfl
  · exact .of_eq rfl rfl
  · split
    · exact .of_eq rfl rfl
    · exact .closeSession _ _
  · exact .of_eq rfl rfl

theorem enetHandle_changes (conv now : UInt32) : Changes P l (l.enetHandle ops conv now).1 := by
  unfold enetHandle
  split
  · exact .of_eq rfl rfl
  · rename_i enetNotify rest _
    have h : Changes P { l with enetNotifyChan := rest }
        ({ l with enetNotifyChan := rest }.handleEnet
        ops enetNotify conv now).1 := handleEnet_changes enetNotify conv now
    exact ⟨h.kept, h.filed⟩

end Listener

/-! ## Runs of an endpoint -/

variable {ops byteCheck}

/-- What a step of a listener does to its sessions. -/
theorem listenerStep_changes {l : Listener κ} (hl : l.Filed) (e : SessionEvent κ) :
    l.Changes (fun s => ∃ data addr, e = .datagram data addr ∧ CarriesId byteCheck s.conv data)
      (Endpoint.listenerStep ops byteCheck l e).1 := by
  cases e with
  | datagram data addr =>
    have h : l.Changes _ (l.packetInput ops byteCheck data addr) :=
      Listener.packetInput_changes hl data addr
    refine ⟨fun n s hs => ?_, h.filed⟩
    obtain ⟨s', hs', hconv, hremote⟩ := h.kept n s hs
    exact ⟨s', hs', hconv, hremote.imp_right fun hcarries => ⟨data, addr, rfl, hcarries⟩⟩
  | enetHandle conv now => exact Listener.enetHandle_changes conv now
  | enetExpire now => exact .of_eq rfl rfl
  | accept => exact .of_eq rfl rfl
  | close n enetType => exact .closeSession n enetType
  | _ => exact .modify fun s _ => ⟨rfl, .inl rfl⟩

variable (ops byteCheck)

namespace Endpoint

/-- The round moves a session only by a datagram with the id of that session. -/
def MovedByOwn (r : Round (Endpoint κ) (SessionEvent κ) Enet) : Prop :=
  ∀ (n : Nat) (s s' : UDPSession κ), r.pre.sessions[n]? = some s →
    (step ops byteCheck r.pre r.event).1.sessions[n]? = some s' → s'.remote ≠ s.remote →
      ∃ data addr, r.event = .datagram data addr ∧ CarriesId byteCheck s.conv data

/-- A datagram that a client session receives from another address than its remote address carries
its id, or changes of the address are off. Nothing is asked of a listener. -/
def KnownSource (r : Round (Endpoint κ) (SessionEvent κ) Enet) : Prop :=
  match r.pre with
  | .client s => ∀ data addr, r.event = .datagram data addr → s.remoteAddrChange = true →
      addr ≠ s.remote → CarriesId byteCheck s.conv data
  | .listener _ => True

/-- The table of the listener, if the endpoint is one, files its sessions under their ids. -/
def Filed : Endpoint κ → Prop
  | .client _ => True
  | .listener l => l.Filed

variable {ops byteCheck}

theorem filed_start (o : Opening) : (start ops o).Filed := by
  cases o with
  | dial conv raddr => trivial
  | serve =>
    intro conv n hn
    cases hn

theorem Filed.step {a : Endpoint κ} (h : a.Filed) (e : SessionEvent κ) :
    (step ops byteCheck a e).1.Filed := by
  cases a with
  | client s => trivial
  | listener l => exact (listenerStep_changes h e).filed_of h

/-- Only a datagram moves a client session, to its source. -/
theorem clientStep_remote (s : UDPSession κ) (e : SessionEvent κ) :
    (clientStep ops byteCheck s e).1.remote = s.remote ∨
      ∃ data addr, e = .datagram data addr ∧ s.remoteAddrChange = true ∧
        (clientStep ops byteCheck s e).1.remote = addr := by
  unfold clientStep
  split
  · rename_i data addr
    rw [UDPSession.receive_remote]
    cases hchange : s.remoteAddrChange with
    | false => exact .inl rfl
    | true => exact .inr ⟨data, addr, rfl, rfl, rfl⟩
  · exact .inl rfl
  · exact .inl (UDPSession.closeReason_remote s _)
  · exact .inl rfl
  · exact .inl rfl

/-- One round. -/
theorem movedByOwn_iff {r : Round (Endpoint κ) (SessionEvent κ) Enet} (h : r.pre.Filed) :
    MovedByOwn ops byteCheck r ↔ KnownSource byteCheck r := by
  obtain ⟨a, e, out⟩ := r
  cases a with
  | listener l =>
    refine iff_of_true (fun n s s' hs hs' hne => ?_) trivial
    have hchanges : l.Changes _ (listenerStep ops byteCheck l e).1 := listenerStep_changes h e
    obtain ⟨s₁, hs₁, -, hremote | hcarries⟩ := hchanges.kept n s hs
    · obtain rfl : s₁ = s' := Option.some.inj (hs₁.symm.trans hs')
      exact absurd hremote hne
    · exact hcarries
  | client s =>
    constructor
    · -- the datagram of the condition moves the session
      rintro hmoved data addr rfl hchange hne
      have hremote : (clientStep ops byteCheck s (.datagram data addr)).1.remote = addr := by
        rw [clientStep, UDPSession.receive_remote, if_pos hchange]
      obtain ⟨data', addr', heq, hcarries⟩ := hmoved 0 s
        (clientStep ops byteCheck s (.datagram data addr)).1 rfl rfl (by rwa [hremote])
      cases heq
      exact hcarries
    · intro hknown n s₀ s' hs hs' hne
      have hn : n = 0 := by
        have := (List.getElem?_eq_some_iff.mp hs).1
        simpa [sessions] using this
      subst hn
      cases hs
      cases hs'
      rcases clientStep_remote s e with hsame | ⟨data, addr, rfl, hchange, hremote⟩
      · exact absurd hsame hne
      · exact ⟨data, addr, rfl, hknown data addr rfl hchange fun heq => hne (hremote.trans heq)⟩

/-- In every run of an endpoint: every datagram that moves a session carries the id of that session,
exactly when a client session receives from other addresses only datagrams with its id. -/
theorem moved_by_own_iff (o : Opening) (es : List (SessionEvent κ)) :
    (∀ r ∈ trace (step ops byteCheck) (start ops o) es, MovedByOwn ops byteCheck r) ↔
      ∀ r ∈ trace (step ops byteCheck) (start ops o) es, KnownSource byteCheck r := by
  refine forall₂_congr fun r hr => movedByOwn_iff ?_
  obtain ⟨l₁, l₂, hsplit⟩ := List.append_of_mem hr
  obtain ⟨es₁, -, -, -, hpre, -⟩ := trace_split hsplit
  rw [hpre]
  exact invariant_run (fun a e ha => ha.step e) (filed_start o) es₁

/-- A transport without a state. -/
def unitOps : KcpOps Unit := ⟨fun _ => (), fun k _ => k, id⟩

/-- One byte from another address moves a client session, so that it sends to that address. -/
theorem moved_by_one_byte :
    (run (step unitOps false) (start unitOps (.dial 0x100000001 "192.0.2.1:22102"))
        [.datagram [0] "203.0.113.9:4000"]).sessions.map UDPSession.remote = ["203.0.113.9:4000"] ∧
      ¬ CarriesId false 0x100000001 [0] := by
  refine ⟨rfl, ?_⟩
  rintro (⟨hlen, -⟩ | ⟨enet, henet, -⟩)
  · simp [ikcpOverhead] at hlen
  · cases henet

end Endpoint

end Halo.Kcp
