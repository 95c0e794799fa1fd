import Halo.Kcp.Redirect

/-!
# Datagrams that a listener does not admit (`protocol/kcp/session.go`)

A datagram with an unknown id takes the pending handshake of its address out of the map, and only
then its id and the backlog are looked at. A datagram of an old session, or one that comes while the
accept queue is full, so costs the client its handshake: its next datagrams have the right id and
find no handshake any more.

* `createsSession_iff`: what a datagram must be to create a session.
* `refused_keeps_handshakes_iff`: a datagram that creates none keeps the handshakes exactly if its
  id is that of a session or its address has no handshake.
-/

namespace Halo.Kcp

namespace Listener

variable {κ : Type} (ops : KcpOps κ) (byteCheck : Bool)

/-- The datagram creates a session. -/
def CreatesSession (l : Listener κ) (data : Bytes) (addr : String) : Prop :=
  (l.packetInput ops byteCheck data addr).all.length ≠ l.all.length

/-- The datagram is one of a finished handshake, and there is room for its session. -/
def Admissible (l : Listener κ) (data : Bytes) (addr : String) : Prop :=
  l.sessions.lookup (le64 data) = none ∧ l.chAccepts.length < acceptBacklog ∧
    ∃ enetSyn, l.remoteAddrEnetSynMap.lookup addr = some enetSyn ∧ enetSyn.rawConv = le64 data

variable {ops byteCheck} {l : Listener κ} {data : Bytes} {addr : String}

theorem length_ne_twenty (hlen : ikcpOverhead byteCheck ≤ data.length) : data.length ≠ 20 := by
  unfold ikcpOverhead at hlen
  omega

/-- A data packet with the id of a session is handled by the session. -/
theorem packetInput_known (hlen : ikcpOverhead byteCheck ≤ data.length) {n : Nat}
    (hn : l.sessions.lookup (le64 data) = some n) :
    l.packetInput ops byteCheck data addr =
      l.modify n fun s => sessionInput ops s (le64 data) data addr := by
  rw [packetInput, if_neg (length_ne_twenty hlen), if_pos hlen, hn]

theorem packetInput_unknown (hlen : ikcpOverhead byteCheck ≤ data.length)
    (hn : l.sessions.lookup (le64 data) = none) :
    l.packetInput ops byteCheck data addr = l.newSession ops (le64 data) data addr := by
  rw [packetInput, if_neg (length_ne_twenty hlen), if_pos hlen, hn]

/-- A datagram of a handshake that is not admitted takes the handshake away and does nothing
else. -/
theorem newSession_refused {enetSyn : EnetSyn}
    (hsyn : l.remoteAddrEnetSynMap.lookup addr = some enetSyn) {conv : UInt64}
    (h : ¬ (enetSyn.rawConv = conv ∧ l.chAccepts.length < acceptBacklog)) :
    l.newSession ops conv data addr =
      { l with remoteAddrEnetSynMap := l.remoteAddrEnetSynMap.erase addr } := by
  rw [newSession, hsyn]
  exact if_neg h

theorem createsSession_iff (hlen : ikcpOverhead byteCheck ≤ data.length) :
    l.CreatesSession ops byteCheck data addr ↔ l.Admissible data addr := by
  rw [CreatesSession, Admissible]
  cases hn : l.sessions.lookup (le64 data) with
  | some n => simp [packetInput_known hlen hn, modify]
  | none =>
    rw [packetInput_unknown hlen hn]
    cases hsyn : l.remoteAddrEnetSynMap.lookup addr with
    | none => simp [newSession, hsyn]
    | some enetSyn =>
      by_cases hroom : enetSyn.rawConv = le64 data ∧ l.chAccepts.length < acceptBacklog
      · simp [newSession, hsyn, hroom]
      · rw [newSession_refused hsyn hroom]
        simp only [ne_eq, not_true_eq_false, false_iff]
        rintro ⟨-, hspace, syn, ⟨⟩, hconv⟩
        exact hroom ⟨hconv, hspace⟩

/-- A datagram that creates no session leaves the handshakes and the sessions as they are exactly if
it belongs to a session or comes from an address without a handshake. -/
theorem refused_keeps_handshakes_iff (ops : KcpOps κ) (byteCheck : Bool) (l : Listener κ)
    (data : Bytes) (addr : String) (hlen : ikcpOverhead byteCheck ≤ data.length)
    (hno : ¬ l.CreatesSession ops byteCheck data addr) :
    ((l.packetInput ops byteCheck data addr).remoteAddrEnetSynMap = l.remoteAddrEnetSynMap ∧
      (l.packetInput ops byteCheck data addr).sessions = l.sessions) ↔
    (l.sessions.lookup (le64 data)).isSome ∨ l.remoteAddrEnetSynMap.lookup addr = none := by
  cases hn : l.sessions.lookup (le64 data) with
  | some n => simp [packetInput_known hlen hn, modify]
  | none =>
    rw [packetInput_unknown hlen hn]
    cases hsyn : l.remoteAddrEnetSynMap.lookup addr with
    | none => simp [newSession, hsyn]
    | some enetSyn =>
      have hroom : ¬ (enetSyn.rawConv = le64 data ∧ l.chAccepts.length < acceptBacklog) := by
        rintro ⟨hconv, hspace⟩
        exact hno ((createsSession_iff hlen).mpr ⟨hn, hspace, enetSyn, hsyn, hconv⟩)
      rw [newSession_refused hsyn hroom]
      refine ⟨fun hkept => ?_, by simp⟩
      -- the handshake of the address is gone from the map
      have hgone : (l.remoteAddrEnetSynMap.erase addr).lookup addr = none := AList.lookup_erase _ _
      rw [show l.remoteAddrEnetSynMap.erase addr = l.remoteAddrEnetSynMap from hkept.1,
        hsyn] at hgone
      cases hgone

/-- A data packet with the id and nothing else. -/
def bareData (conv : UInt64) : Bytes := leBytes 8 conv.toNat ++ List.replicate 20 0

/-- A listener that has sent the id of session 1 and number 5 to a client. -/
def oneHandshake : Listener Unit :=
  (serveConn.handleSyn ⟨"192.0.2.7:5000", 0, 0, .syn, enetClientConnectKey⟩ 5 100).1

/-- A stray datagram with another id from the client's address: the handshake is gone, and the
datagram with the right id, which would have created the session before, creates none. -/
theorem stray_takes_handshake :
    let stray := oneHandshake.packetInput Endpoint.unitOps false (bareData 7) "192.0.2.7:5000"
    (oneHandshake.remoteAddrEnetSynMap.lookup "192.0.2.7:5000").isSome ∧ stray.all = [] ∧
      stray.remoteAddrEnetSynMap.lookup "192.0.2.7:5000" = none ∧
      (oneHandshake.packetInput Endpoint.unitOps false (bareData (rawConvOf 1 5))
        "192.0.2.7:5000").all.length = 1 ∧
      (stray.packetInput Endpoint.unitOps false (bareData (rawConvOf 1 5)) "192.0.2.7:5000").all =
        [] := by
  refine ⟨by decide +kernel, ?_, by decide +kernel, by decide +kernel, ?_⟩
  · exact List.eq_nil_of_length_eq_zero (by decide +kernel)
  · exact List.eq_nil_of_length_eq_zero (by decide +kernel)

/-- A datagram from an address without a handshake. -/
theorem refused_keeps_handshakes_iff_other :
    let other := oneHandshake.packetInput Endpoint.unitOps false (bareData 7) "203.0.113.9:4000"
    other.remoteAddrEnetSynMap = oneHandshake.remoteAddrEnetSynMap ∧
      other.sessions = oneHandshake.sessions :=
  (refused_keeps_handshakes_iff Endpoint.unitOps false oneHandshake (bareData 7) "203.0.113.9:4000"
    (by decide +kernel) (by unfold CreatesSession; decide +kernel)).mpr (.inr (by decide +kernel))

end Listener

end Halo.Kcp
