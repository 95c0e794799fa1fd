import Halo.Kcp.Redirect

/-!
# Sessions with a pinned address

`SetRemoteAddrChange(false)` pins a session to its remote address. A datagram from another address
then must not touch the session: not its state, not its address, and it must not close it. The
client loops and the data path of the listener check this; the control loop of the listener closes
the session that a FIN names without a look at the address the FIN came from.

* `pinned_iff`: in a run, no datagram from another address changes a pinned session exactly when
  every FIN that the control loop takes for a pinned session came from its address.
* `fin_closes_pinned`: a FIN from another address closes a pinned session.
-/

namespace Halo.Kcp

variable {κ : Type} (ops : KcpOps κ) (byteCheck : Bool)

namespace Listener

/-- The table files open sessions, each under its own id. -/
def Open (l : Listener κ) : Prop :=
  ∀ conv n, l.sessions.lookup conv = some n →
    ∃ s, l.all[n]? = some s ∧ s.conv = conv ∧ s.die = false

variable {ops byteCheck} {l : Listener κ}

theorem getElem?_modify_all (n m : Nat) (f : UDPSession κ → UDPSession κ) :
    (l.modify n f).all[m]? = if n = m then (l.all[m]?).map f else l.all[m]? := by
  simp only [modify, List.getElem?_modify]
  split <;> simp

/-- A change of a session that keeps its id and does not close it. -/
theorem Open.modify (h : l.Open) (n : Nat) {f : UDPSession κ → UDPSession κ}
    (hf : ∀ s, (f s).conv = s.conv ∧ (f s).die = s.die) : (l.modify n f).Open := by
  intro conv m hm
  obtain ⟨s, hs, hconv, hdie⟩ := h conv m hm
  rw [getElem?_modify_all, hs]
  split
  · exact ⟨f s, rfl, (hf s).1.trans hconv, (hf s).2.trans hdie⟩
  · exact ⟨s, rfl, hconv, hdie⟩

variable {n : Nat} {s : UDPSession κ}

theorem closeSession_of_get (hs : l.all[n]? = some s) (hdie : s.die = false) (enetType : UInt32) :
    (l.closeSession ops n enetType).1 = { l with
      all := l.all.set n { s with die := true, kcp := ops.release s.kcp }
      sessions := l.sessions.erase s.conv } := by
  simp [closeSession, hs, UDPSession.closeReason, hdie]

theorem closeSession_of_closed (hs : l.all[n]? = some s)
    (hdie : s.die = true) (enetType : UInt32) : (l.closeSession ops n enetType).1 = l := by
  have hset : l.all.set n s = l.all := by
    apply List.ext_getElem?
    intro m
    by_cases hm : n = m
    · subst hm
      have hlt : n < l.all.length := (List.getElem?_eq_some_iff.mp hs).1
      rw [List.getElem?_set_self hlt, hs]
    · rw [List.getElem?_set_ne hm]
  simp [closeSession, hs, UDPSession.closeReason, hdie, hset]

theorem Open.closeSession (h : l.Open) (n : Nat) (enetType : UInt32) :
    (l.closeSession ops n enetType).1.Open := by
  cases hs : l.all[n]? with
  | none =>
    have heq : (l.closeSession ops n enetType).1 = l := by simp [Listener.closeSession, hs]
    rw [heq]
    exact h
  | some s =>
    cases hdie : s.die with
    | true =>
      rw [closeSession_of_closed hs hdie]
      exact h
    | false =>
      rw [closeSession_of_get hs hdie]
      intro conv m hm
      rw [Table.lookup_erase_eq_ite] at hm
      split at hm
      · cases hm
      · rename_i hconv
        obtain ⟨s', hs', hconv', hdie'⟩ := h conv m hm
        -- the closed session has another id, so it is another session
        have hne : n ≠ m := by
          rintro rfl
          obtain rfl : s = s' := Option.some.inj (hs.symm.trans hs')
          exact hconv hconv'.symm
        exact ⟨s', (List.getElem?_set_ne hne).trans hs', hconv', hdie'⟩

theorem Open.newSession (h : l.Open) (conv : UInt64) (data : Bytes) (addr : String) :
    (l.newSession ops conv data addr).Open := by
  unfold Listener.newSession
  split
  · exact h
  dsimp only
  split
  · intro conv' m hm
    rw [Table.lookup_insert_eq_ite] at hm
    split at hm
    · rename_i hconv
      cases hm
      refine ⟨_, List.getElem?_concat_length, ?_, ?_⟩
      · simp [UDPSession.newUDPSession, hconv]
      · simp [UDPSession.newUDPSession, UDPSession.kcpInput]
    · obtain ⟨s, hs, hs'⟩ := h conv' m hm
      have hlt : m < l.all.length := (List.getElem?_eq_some_iff.mp hs).1
      exact ⟨s, (List.getElem?_append_left hlt).trans hs, hs'⟩
  · exact h

theorem sessionInput_die (s : UDPSession κ) (conv : UInt64) (data : Bytes) (addr : String) :
    (sessionInput ops s conv data addr).die = s.die := by
  have hkcp (s : UDPSession κ) : (s.kcpInput ops data).die = s.die := by
    unfold UDPSession.kcpInput
    split <;> rfl
  unfold sessionInput
  split
  · rfl
  · dsimp only
    split <;> split <;> simp [hkcp]

theorem Open.packetInput (h : l.Open) (data : Bytes) (addr : String) :
    (l.packetInput ops byteCheck data addr).Open := by
  unfold Listener.packetInput
  split
  · split <;> exact h
  split
  · split
    · exact h.modify _ fun s => ⟨sessionInput_conv s _ data addr, sessionInput_die s _ data addr⟩
    · exact h.newSession _ data addr
  · exact h

theorem Open.handleEnet (h : l.Open) (enetNotify : Enet) (conv now : UInt32) :
    (l.handleEnet ops enetNotify conv now).1.Open := by
  unfold Listener.handleEnet
  split
  · unfold handleSyn
    split
    · exact h
    split <;> exact h
  · exact h
  · split
    · exact h
    · exact h.closeSession _ _
  · exact h

theorem Open.enetHandle (h : l.Open) (conv now : UInt32) : (l.enetHandle ops conv now).1.Open := by
  unfold Listener.enetHandle
  split
  · exact h
  · rename_i enetNotify rest _
    have hrest : ({ l with enetNotifyChan := rest } : Listener κ).Open := h
    exact hrest.handleEnet enetNotify conv now

/-- A datagram from another address leaves a pinned session alone. -/
theorem packetInput_pinned (hs : l.all[n]? = some s)
    (hpin : s.remoteAddrChange = false) {addr : String} (haddr : addr ≠ s.remote) (data : Bytes) :
    (l.packetInput ops byteCheck data addr).all[n]? = some s := by
  unfold packetInput
  split
  · split <;> exact hs
  split
  · split
    · rename_i m _
      rw [getElem?_modify_all, hs]
      split
      · have hkept : sessionInput ops s (le64 data) data addr = s :=
          if_pos ⟨by simp [hpin], haddr.symm⟩
        exact congrArg some hkept
      · rfl
    · unfold newSession
      split
      · exact hs
      dsimp only
      split
      · have hlt : n < l.all.length := (List.getElem?_eq_some_iff.mp hs).1
        exact (List.getElem?_append_left hlt).trans hs
      · exact hs
  · exact hs

/-- The control loop leaves a session alone, unless it takes a FIN that names it. -/
theorem handleEnet_kept (hs : l.all[n]? = some s) (enetNotify : Enet)
    (h : enetNotify.connType = .fin →
      l.sessions.lookup (rawConvOf enetNotify.sessionId enetNotify.conv) ≠ some n)
    (conv now : UInt32) : (l.handleEnet ops enetNotify conv now).1.all[n]? = some s := by
  unfold handleEnet
  split
  · unfold handleSyn
    split
    · exact hs
    split <;> exact hs
  · exact hs
  · rename_i hfin
    split
    · exact hs
    · rename_i m hm
      have hne : m ≠ n := by
        rintro rfl
        exact h hfin hm
      unfold closeSession
      split
      · exact hs
      · exact (List.getElem?_set_ne hne).trans hs
  · exact hs

end Listener

/-! ## Runs of an endpoint -/

namespace Endpoint

/-- The address of the datagram that a step acts on: the one that arrives, or the one whose control
packet the control loop of the listener takes. -/
def source : Endpoint κ → SessionEvent κ → Option String
  | _, .datagram _ addr => some addr
  | .listener l, .enetHandle _ _ => l.enetNotifyChan.head?.map Enet.addr
  | _, _ => none

/-- A datagram from another address than that of a pinned session leaves the session as it is. -/
def PinKept (r : Round (Endpoint κ) (SessionEvent κ) Enet) : Prop :=
  ∀ (n : Nat) (s : UDPSession κ) (addr : String), r.pre.sessions[n]? = some s →
    s.remoteAddrChange = false → r.pre.source r.event = some addr → addr ≠ s.remote →
      (step ops byteCheck r.pre r.event).1.sessions[n]? = some s

/-- A FIN that the control loop of the listener takes for a pinned session came from the address of
that session. Nothing is asked of a client. -/
def FinKnown (r : Round (Endpoint κ) (SessionEvent κ) Enet) : Prop :=
  match r.pre, r.event with
  | .listener l, .enetHandle _ _ => ∀ (enet : Enet) (n : Nat) (s : UDPSession κ),
      l.enetNotifyChan.head? = some enet → enet.connType = .fin →
      l.sessions.lookup (rawConvOf enet.sessionId enet.conv) = some n → l.all[n]? = some s →
      s.remoteAddrChange = false → enet.addr = s.remote
  | _, _ => True

/-- The table of the listener, if the endpoint is one, files open sessions. -/
def Open : Endpoint κ → Prop
  | .client _ => True
  | .listener l => l.Open

variable {ops byteCheck}

theorem open_start (o : Opening) : (start ops o).Open := by
  cases o with
  | dial conv raddr => trivial
  | serve =>
    intro conv n hn
    cases hn

theorem Open.step {a : Endpoint κ} (h : a.Open) (e : SessionEvent κ) :
    (step ops byteCheck a e).1.Open := by
  cases a with
  | client s => trivial
  | listener l =>
    have hl : l.Open := h
    cases e with
    | datagram data addr => exact hl.packetInput data addr
    | enetHandle conv now => exact hl.enetHandle conv now
    | enetExpire now => exact hl
    | accept => exact hl
    | setRemoteAddrChange n enable => exact hl.modify n fun s => ⟨rfl, rfl⟩
    | close n enetType => exact hl.closeSession n enetType
    | transport n f => exact hl.modify n fun s => ⟨rfl, rfl⟩

/-- A client session is pinned. -/
theorem pinKept_client (s : UDPSession κ) (e : SessionEvent κ) (out : List Enet) :
    PinKept ops byteCheck ⟨.client s, e, out⟩ := by
  intro n s' addr hs hpin hsource hne
  obtain rfl : n = 0 := by
    have hlt := (List.getElem?_eq_some_iff.mp hs).1
    simpa [sessions] using hlt
  cases hs
  cases e with
  | datagram data addr' =>
    cases hsource
    have hkept : s.receive ops byteCheck data addr = (s, []) := by
      rw [UDPSession.receive, if_pos hne.symm, if_pos (by simp [hpin])]
    show [(s.receive ops byteCheck data addr).1][0]? = some s
    rw [hkept]
    rfl
  | _ => cases hsource

/-- The round of the control loop. -/
theorem pinKept_enetHandle {l : Listener κ} (hl : l.Open) (conv now : UInt32) (out : List Enet) :
    PinKept ops byteCheck ⟨.listener l, .enetHandle conv now, out⟩ ↔
      FinKnown ⟨.listener l, .enetHandle conv now, out⟩ := by
  constructor
  · -- the FIN would close the session, which is open
    intro hkept enet n s henet hfin hn hs hpin
    by_contra hne
    obtain ⟨rest, hchan⟩ : ∃ rest, l.enetNotifyChan = enet :: rest :=
      List.head?_eq_some_iff.mp henet
    have hpost := hkept n s enet.addr hs hpin (by simp [source, henet]) hne
    obtain ⟨s', hs', -, hdie⟩ := hl _ _ hn
    obtain rfl : s = s' := Option.some.inj (hs.symm.trans hs')
    have hstep : (l.enetHandle ops conv now).1.all =
        l.all.set n { s with die := true, kcp := ops.release s.kcp } := by
      have hclose :
          (Listener.closeSession ops { l with enetNotifyChan := rest } n enet.enetType).1 = _ :=
        Listener.closeSession_of_get (l := { l with enetNotifyChan := rest }) hs hdie enet.enetType
      simp only [Listener.enetHandle, hchan, Listener.handleEnet, hfin, hn, hclose]
    have hlt : n < l.all.length := (List.getElem?_eq_some_iff.mp hs).1
    have hclosed : (l.enetHandle ops conv now).1.all[n]? =
        some { s with die := true, kcp := ops.release s.kcp } := by
      rw [hstep, List.getElem?_set_self hlt]
    have heq := Option.some.inj (hclosed.symm.trans hpost)
    have hdie' := congrArg UDPSession.die heq
    rw [hdie] at hdie'
    cases hdie'
  · intro hknown n s addr hs hpin hsource hne
    have hs' : l.all[n]? = some s := hs
    show (l.enetHandle ops conv now).1.all[n]? = some s
    unfold Listener.enetHandle
    split
    · exact hs'
    · rename_i enet rest hchan
      have hhead : l.enetNotifyChan.head? = some enet := by rw [hchan]; rfl
      have haddr : enet.addr = addr := by simpa [source, hhead] using hsource
      refine Listener.handleEnet_kept (l := { l with enetNotifyChan := rest }) hs' enet ?_ conv now
      intro hfin hn
      exact hne (haddr.symm.trans (hknown enet n s hhead hfin hn hs' hpin))

/-- One round. -/
theorem pinKept_iff {r : Round (Endpoint κ) (SessionEvent κ) Enet} (h : r.pre.Open) :
    PinKept ops byteCheck r ↔ FinKnown r := by
  obtain ⟨a, e, out⟩ := r
  cases a with
  | client s => exact iff_of_true (pinKept_client s e out) trivial
  | listener l =>
    cases e with
    | enetHandle conv now => exact pinKept_enetHandle h conv now out
    | datagram data addr =>
      refine iff_of_true (fun n s addr' hs hpin hsource hne => ?_) trivial
      cases hsource
      exact Listener.packetInput_pinned hs hpin hne data
    | _ => exact iff_of_true (fun n s addr hs hpin hsource hne => nomatch hsource) trivial

/-- In every run of an endpoint: no datagram from another address changes a session with a pinned
address, exactly when every FIN that the control loop takes for such a session came from the address
of the session. -/
theorem pinned_iff (o : Opening) (es : List (SessionEvent κ)) :
    (∀ r ∈ trace (step ops byteCheck) (start ops o) es, PinKept ops byteCheck r) ↔
      ∀ r ∈ trace (step ops byteCheck) (start ops o) es, FinKnown r := by
  refine forall₂_congr fun r hr => pinKept_iff ?_
  obtain ⟨l₁, l₂, hsplit⟩ := List.append_of_mem hr
  obtain ⟨es₁, -, -, -, hpre, -⟩ := trace_split hsplit
  rw [hpre]
  exact invariant_run (fun a e ha => ha.step e) (open_start o) es₁

/-- A handshake from `192.0.2.7:5000`, the first datagram of the session, the pin, and a FIN with
the id of the session from another address, up to the FIN. -/
def pinnedEvents : List (SessionEvent Unit) :=
  [.datagram (buildEnet .syn enetClientConnectKey 0 0) "192.0.2.7:5000",
    .enetHandle 5 0,
    .datagram (leBytes 8 (rawConvOf 1 5).toNat ++ List.replicate 20 0) "192.0.2.7:5000",
    .setRemoteAddrChange 0 false,
    .datagram (buildEnet .fin 1 1 5) "203.0.113.9:4000"]

/-- The FIN from another address closes the pinned session. -/
theorem fin_closes_pinned :
    ((run (step unitOps false) (start unitOps .serve) pinnedEvents).sessions.map fun s =>
        (s.remote, s.remoteAddrChange, s.die)) = [("192.0.2.7:5000", false, false)] ∧
      ((run (step unitOps false) (start unitOps .serve)
        (pinnedEvents ++ [.enetHandle 0 0])).sessions.map
        fun s => (s.remote, s.remoteAddrChange, s.die)) = [("192.0.2.7:5000", false, true)] := by
  decide +kernel

end Endpoint

end Halo.Kcp
