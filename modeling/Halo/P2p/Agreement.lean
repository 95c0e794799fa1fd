import Halo.Base.Trace
import Halo.P2p.Punch

/-!
# The agreement of two hole punching runs

Two runs with the same conversation id are connected by a network that may drop, repeat, delay and
reorder packets, deliver them to anyone and under any source address, but sends none of its own.

* `Progress r recv r' out`: what one part of a round does, given the packet that it receives.
* `PunchNet`: two runs, the packets sent and the packets delivered.
* `punch_agreement`: when a run returns an endpoint, the other one has selected an endpoint from an
  answer of this run and has recorded its confirmation or does so next, and the endpoint is one that
  the other run has answered from.
-/

namespace Halo.P2p

open List

namespace PunchRun

variable {r r' r'' : PunchRun} {data : Bytes} {out : List Datagram}

/-! ## One part of a round -/

/-- A CONFIRM_ACK is written. -/
def Acknowledged (r : PunchRun) : Prop := r.peerConfirmed ∨ r.acknowledging

/-- What the variables of a run have to do with a packet of a type that it sends. -/
abbrev Reason (r : PunchRun) (packetType : PunchPacketType) (id : UInt32) : Prop :=
  match packetType with
  | .check => id ∈ r.outboundTransactions
  | .checkAck => (r.inboundTransactions.lookup id).isSome
  | .confirm => r.selectedRemote.isSome ∧ r.selectedTransactionID = id
  | .confirmAck => (r.inboundTransactions.lookup id).isSome ∧ r.Acknowledged

/-- The run has a reason for a packet that it has sent. -/
def Justified (r : PunchRun) (data : Bytes) : Prop :=
  ∃ packetType id, data = buildPunchPacket packetType r.conv id ∧ r.Reason packetType id

/-- What a run never takes back. -/
structure Grows (r r' : PunchRun) : Prop where
  conv : r'.conv = r.conv
  remote : r'.remote = r.remote
  outbound : r.outboundTransactions ⊆ r'.outboundTransactions
  inbound : ∀ id src, r.inboundTransactions.lookup id = some src →
    r'.inboundTransactions.lookup id = some src
  selected : r.selectedRemote.isSome → r'.selectedRemote = r.selectedRemote ∧
    r'.selectedTransactionID = r.selectedTransactionID
  localConfirmed : r.localConfirmed → r'.localConfirmed
  acknowledged : r.Acknowledged → r'.Acknowledged

theorem Grows.refl (r : PunchRun) : Grows r r :=
  ⟨rfl, rfl, fun _ h => h, fun _ _ h => h, fun _ => ⟨rfl, rfl⟩, fun h => h, fun h => h⟩

theorem Justified.mono (h : r.Justified data) (hr : Grows r r') : r'.Justified data := by
  obtain ⟨packetType, id, hdata, hid⟩ := h
  have hinbound : (r.inboundTransactions.lookup id).isSome →
      (r'.inboundTransactions.lookup id).isSome := by
    intro hsome
    obtain ⟨src, hsrc⟩ := Option.isSome_iff_exists.mp hsome
    exact Option.isSome_iff_exists.mpr ⟨src, hr.inbound id src hsrc⟩
  refine ⟨packetType, id, by rw [hr.conv, hdata], ?_⟩
  cases packetType with
  | check => exact hr.outbound hid
  | checkAck => exact hinbound hid
  | confirm =>
    obtain ⟨hremote, hsel⟩ := hr.selected hid.1
    exact ⟨hremote ▸ hid.1, hsel.trans hid.2⟩
  | confirmAck => exact ⟨hinbound hid.1, hr.acknowledged hid.2⟩

/-- What a part of a round does, where `recv` is the packet that it handles. -/
structure Progress (r : PunchRun) (recv : Option (PunchPacket × UDPAddr)) (r' : PunchRun)
    (out : List Datagram) : Prop extends Grows r r' where
  inbound_new : ∀ id src, r'.inboundTransactions.lookup id = some src →
    r.inboundTransactions.lookup id = some src ∨
      ∃ source, recv = some (⟨.check, r.conv, id⟩, source) ∧ id ∉ r.outboundTransactions
  selected_new : ∀ endpoint, r'.selectedRemote = some endpoint → r.selectedRemote = some endpoint ∨
    recv = some (⟨.checkAck, r.conv, r'.selectedTransactionID⟩, endpoint) ∧
      r'.selectedTransactionID ∈ r.outboundTransactions
  local_new : r'.localConfirmed → r.localConfirmed ∨
    ∃ source, recv = some (⟨.confirmAck, r.conv, r.selectedTransactionID⟩, source) ∧
      r.selectedRemote.map UDPAddr.string = some source.string
  peer_new : r'.Acknowledged → r.Acknowledged ∨
    ∃ id source, recv = some (⟨.confirm, r.conv, id⟩, source) ∧
      (r.inboundTransactions.lookup id).isSome
  success_new : r'.successDeadline.isSome → r.successDeadline.isSome ∨
    r'.localConfirmed ∧ r'.Acknowledged
  result_new : ∀ endpoint, r'.result = some (.ok (some endpoint)) →
    r.result = some (.ok (some endpoint)) ∨
      r'.successDeadline.isSome ∧ r'.selectedRemote = some endpoint
  out_ok : ∀ d ∈ out, r'.Justified d.1

/-- Only the counters, the transactions and the result change while a run sends. -/
structure SameState (r r' : PunchRun) : Prop where
  conv : r'.conv = r.conv
  remote : r'.remote = r.remote
  config : r'.config = r.config
  inbound : r'.inboundTransactions = r.inboundTransactions
  selected : r'.selectedRemote = r.selectedRemote
  selectedID : r'.selectedTransactionID = r.selectedTransactionID
  localConfirmed : r'.localConfirmed = r.localConfirmed
  peerConfirmed : r'.peerConfirmed = r.peerConfirmed
  acknowledging : r'.acknowledging = r.acknowledging
  success : r'.successDeadline = r.successDeadline
  outbound : r.outboundTransactions ⊆ r'.outboundTransactions

theorem SameState.refl (r : PunchRun) : SameState r r :=
  ⟨rfl, rfl, rfl, rfl, rfl, rfl, rfl, rfl, rfl, rfl, fun _ h => h⟩

theorem SameState.trans (h : SameState r r') (h' : SameState r' r'') : SameState r r'' where
  conv := h'.conv.trans h.conv
  remote := h'.remote.trans h.remote
  config := h'.config.trans h.config
  inbound := h'.inbound.trans h.inbound
  selected := h'.selected.trans h.selected
  selectedID := h'.selectedID.trans h.selectedID
  localConfirmed := h'.localConfirmed.trans h.localConfirmed
  peerConfirmed := h'.peerConfirmed.trans h.peerConfirmed
  acknowledging := h'.acknowledging.trans h.acknowledging
  success := h'.success.trans h.success
  outbound := h.outbound.trans h'.outbound

theorem SameState.acknowledged (h : SameState r r') : r'.Acknowledged ↔ r.Acknowledged := by
  unfold Acknowledged
  rw [h.peerConfirmed, h.acknowledging]

/-- A part of a round that handles no packet. -/
theorem SameState.progress (h : SameState r r') (recv : Option (PunchPacket × UDPAddr))
    (hresult : ∀ endpoint, r'.result = some (.ok (some endpoint)) →
      r.result = some (.ok (some endpoint)) ∨
        r'.successDeadline.isSome ∧ r'.selectedRemote = some endpoint)
    (hout : ∀ d ∈ out, r'.Justified d.1) : Progress r recv r' out where
  conv := h.conv
  remote := h.remote
  outbound := h.outbound
  inbound _ _ hid := h.inbound ▸ hid
  selected _ := ⟨h.selected, h.selectedID⟩
  localConfirmed hl := h.localConfirmed.trans hl
  acknowledged := h.acknowledged.mpr
  inbound_new _ _ hid := .inl (h.inbound ▸ hid)
  selected_new _ he := .inl (h.selected ▸ he)
  local_new hl := .inl (h.localConfirmed ▸ hl)
  peer_new hp := .inl (h.acknowledged.mp hp)
  success_new hs := .inl (h.success ▸ hs)
  result_new := hresult
  out_ok := hout

theorem SameState.finish (h : SameState r r') (resetDeadlineFails : Bool)
    (result : Except PunchError (Option UDPAddr)) :
    SameState r (r'.finish resetDeadlineFails result) := { h with }

/-- The CHECK packets of a burst. The ids are taken one after the other; after a write that failed
the run is over. -/
theorem sendChecks_spec (fails : Nat → Bool) (r : PunchRun) (k : Nat) (rest : List UDPAddr) :
    ∃ n ≤ rest.length, SameState r (sendChecks fails r k rest).1 ∧
      (sendChecks fails r k rest).1.result = r.result ∧
        (sendChecks fails r k rest).1.burst = r.burst ∧
      (sendChecks fails r k rest).1.nextTransactionID = r.nextTransactionID + UInt32.ofNat n ∧
      (∀ id ∈ (sendChecks fails r k rest).1.outboundTransactions, id ∈ r.outboundTransactions ∨
        ∃ i < n, id = r.nextTransactionID + UInt32.ofNat i) ∧
      ((sendChecks fails r k rest).2.2 = true → n = rest.length) ∧
      ∀ d ∈ (sendChecks fails r k rest).2.1, (sendChecks fails r k rest).1.Justified d.1 := by
  induction rest generalizing r k with
  | nil =>
    exact ⟨0, le_rfl, .refl r, rfl, rfl, by simp [sendChecks], fun id hid => .inl hid, fun _ => rfl,
      fun d hd => (by cases hd)⟩
  | cons candidate rest ih =>
    unfold sendChecks
    dsimp only
    split
    · refine ⟨1, by simp,
        ⟨rfl, rfl, rfl, rfl, rfl, rfl, rfl, rfl, rfl, rfl, Finset.subset_insert _ _⟩, rfl, rfl, rfl,
        fun id hid => ?_, fun h => (by cases h), fun d hd => (by cases hd)⟩
      rcases Finset.mem_insert.mp hid with rfl | hid
      · exact .inr ⟨0, Nat.one_pos, by simp⟩
      · exact .inl hid
    · obtain ⟨n, hn, hsame, hresult, hburst, hnext, hids, hok, hout⟩ := ih { r with
        nextTransactionID := r.nextTransactionID + 1
        outboundTransactions := insert r.nextTransactionID r.outboundTransactions } (k + 1)
      have hfirst : SameState r { r with
          nextTransactionID := r.nextTransactionID + 1
          outboundTransactions := insert r.nextTransactionID r.outboundTransactions } :=
        ⟨rfl, rfl, rfl, rfl, rfl, rfl, rfl, rfl, rfl, rfl, Finset.subset_insert _ _⟩
      have hadd : ∀ i, r.nextTransactionID + 1 + UInt32.ofNat i =
          r.nextTransactionID + UInt32.ofNat (i + 1) := by
        intro i
        rw [add_assoc, UInt32.ofNat_add, add_comm (UInt32.ofNat i)]
        rfl
      refine ⟨n + 1, Nat.succ_le_succ hn, hfirst.trans hsame, hresult, hburst, ?_, fun id hid => ?_,
        fun h => (by rw [hok h]; rfl), fun d hd => ?_⟩
      · exact hnext.trans (hadd n)
      · rcases hids id hid with hid | ⟨i, hi, rfl⟩
        · rcases Finset.mem_insert.mp hid with rfl | hid
          · exact .inr ⟨0, Nat.succ_pos n, by simp⟩
          · exact .inl hid
        · exact .inr ⟨i + 1, Nat.succ_lt_succ hi, hadd i⟩
      · rcases mem_cons.mp hd with rfl | hd
        · refine ⟨.check, r.nextTransactionID, by rw [hsame.conv], ?_⟩
          exact hsame.outbound (Finset.mem_insert_self _ _)
        · exact hout d hd

/-- A part of a round that changes neither the transactions nor the selection. -/
structure Quiet (r : PunchRun) (res : PunchRun × List Datagram) : Prop where
  same : SameState r res.1
  outbound : res.1.outboundTransactions = r.outboundTransactions
  next : res.1.nextTransactionID = r.nextTransactionID
  burst : res.1.burst = r.burst
  result : ∀ endpoint, res.1.result = some (.ok (some endpoint)) →
    r.result = some (.ok (some endpoint))
  out_ok : ∀ d ∈ res.2, res.1.Justified d.1

theorem Quiet.refl (r : PunchRun) : Quiet r (r, []) :=
  ⟨.refl r, rfl, rfl, rfl, fun _ h => h, fun _ hd => (by cases hd)⟩

theorem Justified.finish (h : r.Justified data) (resetDeadlineFails : Bool)
    (result : Except PunchError (Option UDPAddr)) :
    (r.finish resetDeadlineFails result).Justified data := h

theorem Quiet.finish (h : Quiet r (r', out)) (resetDeadlineFails : Bool) (e : PunchError) :
    Quiet r (r'.finish resetDeadlineFails (.error e), out) :=
  ⟨h.same.finish resetDeadlineFails (.error e), h.outbound, h.next, h.burst,
    fun _ h => (by cases h), fun d hd => (h.out_ok d hd).finish resetDeadlineFails (.error e)⟩

theorem sendConfirm_quiet (r : PunchRun) (env : SendEnv) (now : Nat) :
    Quiet r (r.sendConfirm env now) := by
  unfold sendConfirm
  split
  · rename_i endpoint hsel
    split
    · split
      · exact (Quiet.refl r).finish _ _
      · have hquiet : Quiet r ({ r with nextConfirm := env.confirmEnd + r.config.confirmInterval },
            [(buildPunchPacket .confirm r.conv r.selectedTransactionID, endpoint)]) := by
          refine ⟨⟨rfl, rfl, rfl, rfl, rfl, rfl, rfl, rfl, rfl, rfl, fun _ h => h⟩, rfl, rfl, rfl,
            fun _ h => h, fun d hd => ?_⟩
          obtain rfl := mem_singleton.mp hd
          exact ⟨.confirm, _, rfl, hsel ▸ rfl, rfl⟩
        dsimp only
        split
        · exact hquiet.finish _ _
        · exact hquiet
    · split
      · exact (Quiet.refl r).finish _ _
      · exact .refl r
  · split
    · exact (Quiet.refl r).finish _ _
    · exact .refl r

variable {res : PunchRun × List Datagram} {env : ReceiveEnv} {control : PunchPacket}
  {source : UDPAddr}

/-- A part of a round that takes no transaction ids. -/
structure Handles (r : PunchRun) (recv : Option (PunchPacket × UDPAddr)) (r' : PunchRun)
    (out : List Datagram) : Prop extends Progress r recv r' out where
  config : r'.config = r.config
  same_outbound : r'.outboundTransactions = r.outboundTransactions
  next : r'.nextTransactionID = r.nextTransactionID
  burst : r'.burst = r.burst

theorem Quiet.handles (h : Quiet r res) (recv : Option (PunchPacket × UDPAddr)) :
    Handles r recv res.1 res.2 :=
  ⟨h.same.progress recv (fun endpoint hres => .inl (h.result endpoint hres)) h.out_ok,
    h.same.config, h.outbound, h.next, h.burst⟩

theorem Quiet.progress (h : Quiet r res) (recv : Option (PunchPacket × UDPAddr)) :
    Progress r recv res.1 res.2 :=
  (h.handles recv).toProgress

/-- A round up to its read. -/
theorem send_progress (r : PunchRun) (env : SendEnv) :
    Progress r none (r.send env).1 (r.send env).2 := by
  have herror : ∀ e, Progress r none (r.finish env.resetDeadlineFails (.error e)) [] := fun e =>
    ((Quiet.refl r).finish env.resetDeadlineFails e).progress none
  unfold send
  split
  · exact herror _
  split
  · rename_i hsuccess
    refine ((SameState.refl r).finish env.resetDeadlineFails (.ok r.selectedRemote)).progress none
      (fun endpoint h => .inr ⟨?_, ?_⟩) (fun _ hd => by cases hd)
    · exact Option.isSome_of_any hsuccess
    · unfold finish at h ⊢
      cases hreset : env.resetDeadlineFails with
      | false =>
        rw [hreset] at h
        simpa using h
      | true =>
        rw [hreset] at h
        cases h
  split
  · exact herror _
  split
  · obtain ⟨n, -, hsame, hresult, -, -, -, -, hout⟩ :=
      sendChecks_spec env.writeCheckFails r 0 r.candidates
    generalize sendChecks env.writeCheckFails r 0 r.candidates = res at hsame hresult hout ⊢
    obtain ⟨r', checks, ok⟩ := res
    dsimp only at hsame hresult hout ⊢
    split
    · exact (hsame.finish env.resetDeadlineFails (.error (.write .check))).progress none
        (fun _ h => by cases h) fun d hd => (hout d hd).finish env.resetDeadlineFails _
    · have hquiet := sendConfirm_quiet { r' with
        burst := r'.burst + 1, nextBurst := env.burstEnd + r'.config.burstInterval } env
          env.burstNow
      have hsame' : SameState r' { r' with
        burst := r'.burst + 1, nextBurst := env.burstEnd + r'.config.burstInterval } :=
        ⟨rfl, rfl, rfl, rfl, rfl, rfl, rfl, rfl, rfl, rfl, fun _ h => h⟩
      refine (hsame.trans (hsame'.trans hquiet.same)).progress none
        (fun endpoint h => .inl ?_) fun d hd => ?_
      · exact hresult ▸ hquiet.result endpoint h
      · rcases mem_append.mp hd with hd | hd
        · have hjust : Justified { r' with burst := r'.burst + 1, nextBurst := env.burstEnd +
            r'.config.burstInterval } d.1 := hout d hd
          exact hjust.mono (hquiet.progress none).toGrows
        · exact hquiet.out_ok d hd
  · exact (r.sendConfirm_quiet env env.now).progress none

/-! ## The handling of a packet -/

/-- A packet that is answered, before and after the write. -/
theorem answer_handles {recv : Option (PunchPacket × UDPAddr)}
    {packetType : PunchPacketType} {id : UInt32} {dst : UDPAddr} {after : PunchRun → PunchRun}
    (hbefore : Handles r recv r' []) (hafter : Handles r recv (after r')
      [(buildPunchPacket packetType r'.conv id, dst)]) :
    Handles r recv (r'.answer env packetType id dst after).1
      (r'.answer env packetType id dst after).2 := by
  unfold answer
  split
  · exact { hbefore with
      result_new := fun _ h => (by cases h)
      out_ok := fun _ hd => by cases hd }
  · exact hafter

theorem handle_handles (hconv : control.conv = r.conv)
    (h : r.handle control source env = some res) :
    Handles r (some (control, source)) res.1 res.2 := by
  obtain ⟨packetType, conv, id⟩ := control
  dsimp only at hconv
  subst hconv
  have hrefl := (Quiet.refl r).handles (some (⟨packetType, r.conv, id⟩, source))
  unfold handle at h
  cases packetType with
  | check =>
    dsimp only at h
    split at h
    · cases h
    rename_i hout
    split at h
    · rename_i src hsrc
      split at h
      · cases h
      cases h
      refine answer_handles hrefl { hrefl with out_ok := fun d hd => ?_ }
      obtain rfl := mem_singleton.mp hd
      exact ⟨.checkAck, id, rfl, Option.isSome_iff_exists.mpr ⟨src, hsrc⟩⟩
    · rename_i hnew
      split at h
      · cases h
      cases h
      have hbefore : Handles r (some (⟨.check, r.conv, id⟩, source))
          { r with inboundTransactions := r.inboundTransactions.insert id source.string } [] :=
        { hrefl with
          inbound := fun id' src hid' => by
            have hne : id' ≠ id := by
              rintro rfl
              rw [hnew] at hid'
              cases hid'
            exact (AList.lookup_insert_ne hne).trans hid'
          inbound_new := fun id' src hid' => by
            by_cases heq : id' = id
            · exact .inr ⟨source, by rw [heq], heq ▸ hout⟩
            · exact .inl ((AList.lookup_insert_ne heq).symm.trans hid')
          out_ok := fun _ hd => by cases hd }
      refine answer_handles hbefore { hbefore with out_ok := fun d hd => ?_ }
      obtain rfl := mem_singleton.mp hd
      exact ⟨.checkAck, id, rfl, Option.isSome_iff_exists.mpr ⟨_, AList.lookup_insert _⟩⟩
  | checkAck =>
    dsimp only at h
    split at h
    · cases h
    rename_i hsel
    split at h
    · cases h
    rename_i hout
    cases h
    have hbefore : Handles r (some (⟨.checkAck, r.conv, id⟩, source))
        { r with selectedTransactionID := id, selectedRemote := some source } [] :=
      { hrefl with
        selected := fun hsome => absurd hsome hsel
        selected_new := fun endpoint he => by
          cases he
          exact .inr ⟨rfl, not_not.mp hout⟩
        result_new := fun _ hres => .inl hres
        out_ok := fun _ hd => by cases hd }
    refine answer_handles hbefore { hbefore with out_ok := fun d hd => ?_ }
    obtain rfl := mem_singleton.mp hd
    exact ⟨.confirm, id, rfl, rfl, rfl⟩
  | confirm =>
    dsimp only at h
    split at h
    · cases h
    rename_i hsrc
    cases h
    have hin : (r.inboundTransactions.lookup id).isSome := by
      rw [not_not.mp hsrc]
      rfl
    refine answer_handles hrefl { hrefl with
      acknowledged := fun _ => .inr rfl
      peer_new := fun _ => .inr ⟨id, source, rfl, hin⟩
      success_new := fun hs => .inl hs
      out_ok := fun d hd => ?_ }
    obtain rfl := mem_singleton.mp hd
    exact ⟨.confirmAck, id, rfl, hin, .inr rfl⟩
  | confirmAck =>
    dsimp only at h
    split at h
    · cases h
    rename_i hsrc
    rw [not_or, not_not, not_not] at hsrc
    cases h
    exact { hrefl with
      localConfirmed := fun _ => rfl
      local_new := fun _ => .inr ⟨source, by rw [hsrc.2], hsrc.1⟩
      success_new := fun hs => .inl hs
      out_ok := fun _ hd => by cases hd }

/-- The packet that the rest of a round handles. -/
def handled (r : PunchRun) : ReadResult → Option (PunchPacket × UDPAddr)
  | .packet data source =>
    if ipEqual source.ip r.remote.ip then
      ((parsePunchPacket (data.take 64)).filter fun control => control.conv = r.conv).map
        (·, source)
    else none
  | _ => none

theorem handled_eq_some {input : ReadResult} (h : r.handled input = some (control, source)) :
    ∃ data, input = .packet data source ∧ ipEqual source.ip r.remote.ip = true ∧
      parsePunchPacket (data.take 64) = some control ∧ control.conv = r.conv := by
  cases input with
  | nothing => cases h
  | failed => cases h
  | packet data source' =>
    unfold handled at h
    dsimp only at h
    split at h
    · rename_i hip
      obtain ⟨control', hcontrol, heq⟩ := Option.map_eq_some_iff.mp h
      cases heq
      obtain ⟨hparse, hconv⟩ := Option.filter_eq_some_iff.mp hcontrol
      exact ⟨data, rfl, hip, hparse, of_decide_eq_true hconv⟩
    · cases h

theorem succeed_handles {recv : Option (PunchPacket × UDPAddr)} (h : Handles r recv r' out)
    (now : Nat) : Handles r recv (r'.succeed now) out := by
  unfold succeed
  split
  · rename_i hboth
    exact { h with
      success_new := fun _ => .inr ⟨hboth.1, .inl hboth.2.1⟩
      result_new := fun endpoint hres => (h.result_new endpoint hres).imp_right fun hr =>
        ⟨rfl, hr.2⟩ }
  · exact h

/-- The rest of a round. -/
theorem receive_handles (r : PunchRun) (input : ReadResult) (env : ReceiveEnv) :
    Handles r (r.handled input) (r.receive input env).1 (r.receive input env).2 := by
  cases input with
  | nothing => exact (Quiet.refl r).handles _
  | failed => exact ((Quiet.refl r).finish env.resetDeadlineFails .read).handles _
  | packet data source =>
    have hquiet : ∀ recv, Handles r recv (r, ([] : List Datagram)).1 (r, ([] : List Datagram)).2 :=
      fun recv => (Quiet.refl r).handles recv
    unfold receive handled
    dsimp only
    cases ipEqual source.ip r.remote.ip with
    | false => exact hquiet none
    | true =>
      simp only [Bool.not_true, Bool.false_eq_true, if_false, if_true]
      cases parsePunchPacket (data.take 64) with
      | none => exact hquiet none
      | some control =>
        dsimp only
        by_cases hconv : control.conv = r.conv
        swap
        · rw [if_pos hconv]
          exact hquiet _
        rw [if_neg (not_not.mpr hconv), Option.filter_some, if_pos (decide_eq_true hconv)]
        cases hhandle : r.handle control source env with
        | none => exact hquiet _
        | some res =>
          have hhandles := handle_handles hconv hhandle
          obtain ⟨r', out⟩ := res
          dsimp only at hhandles ⊢
          split
          · exact hhandles
          · exact succeed_handles hhandles env.now

theorem record_handles (r : PunchRun) (now : Nat) : Handles r none (r.record now) [] := by
  have hrefl := (Quiet.refl r).handles none
  unfold record
  split
  · rename_i hack
    have hrecorded : Handles r none { r with peerConfirmed := true, acknowledging := false } [] :=
      { hrefl with
        acknowledged := fun _ => .inl rfl
        peer_new := fun _ => .inl (.inr hack)
        success_new := fun hs => .inl hs
        out_ok := fun _ hd => by cases hd }
    exact succeed_handles hrecorded now
  · exact hrefl

/-! ## Transaction ids -/

/-- How many ids a run can take. -/
def transactionCount (r : PunchRun) : Nat := r.candidates.length * r.config.burstCount

/-- The ids of a run are taken from `start` on, a burst at a time. -/
structure IdsFrom (start : UInt32) (count : Nat) (r : PunchRun) : Prop where
  count_eq : r.transactionCount = count
  burst_le : r.burst ≤ r.config.burstCount
  next : r.result = none → r.nextTransactionID =
    start + UInt32.ofNat (r.candidates.length * r.burst)
  ids : ∀ id ∈ r.outboundTransactions, ∃ i < count, id = start + UInt32.ofNat i

variable {start : UInt32} {count : Nat}

theorem candidates_congr (hremote : r'.remote = r.remote) (hconfig : r'.config = r.config) :
    r'.candidates = r.candidates := by
  unfold candidates
  rw [hremote, hconfig]

theorem IdsFrom.handles {recv : Option (PunchPacket × UDPAddr)} (h : IdsFrom start count r)
    (hresult : r.result = none) (hsame : Handles r recv r' out) : IdsFrom start count r' := by
  have hcand := candidates_congr hsame.remote hsame.config
  refine ⟨?_, ?_, fun _ => ?_, fun id hid => h.ids id (hsame.same_outbound ▸ hid)⟩
  · rw [transactionCount, hcand, hsame.config]
    exact h.count_eq
  · rw [hsame.burst, hsame.config]
    exact h.burst_le
  · rw [hsame.next, hcand, hsame.burst]
    exact h.next hresult

/-- A burst takes one id for each candidate. -/
theorem IdsFrom.send (h : IdsFrom start count r) (hresult : r.result = none)
    (env : SendEnv) : IdsFrom start count (r.send env).1 := by
  have hfinish : ∀ res, IdsFrom start count (r.finish env.resetDeadlineFails res) := fun _ =>
    ⟨h.count_eq, h.burst_le, fun _ => h.next hresult, h.ids⟩
  unfold PunchRun.send
  split
  · dsimp only
    exact hfinish _
  split
  · dsimp only
    exact hfinish _
  split
  · dsimp only
    exact hfinish _
  split
  · rename_i hburst
    obtain ⟨n, hn, hsame, hres, hb, hnext, hids, hok, -⟩ :=
      sendChecks_spec env.writeCheckFails r 0 r.candidates
    generalize sendChecks env.writeCheckFails r 0 r.candidates =
      res at hsame hres hb hnext hids hok ⊢
    obtain ⟨r', checks, ok⟩ := res
    dsimp only at hsame hres hb hnext hids hok ⊢
    have hcand := candidates_congr hsame.remote hsame.config
    have hcount : r'.transactionCount = count := by
      rw [transactionCount, hcand, hsame.config]
      exact h.count_eq
    have hroom : r.candidates.length * r.burst + n ≤ count := by
      calc r.candidates.length * r.burst + n ≤ r.candidates.length * (r.burst + 1) := by
            rw [Nat.mul_add_one]
            exact Nat.add_le_add_left hn _
        _ ≤ r.transactionCount := Nat.mul_le_mul_left _ hburst.1
        _ = count := h.count_eq
    have hids' : ∀ id ∈ r'.outboundTransactions, ∃ i < count, id = start + UInt32.ofNat i := by
      intro id hid
      rcases hids id hid with hid | ⟨i, hi, rfl⟩
      · exact h.ids id hid
      · refine ⟨r.candidates.length * r.burst + i,
          lt_of_lt_of_le (Nat.add_lt_add_left hi _) hroom, ?_⟩
        rw [h.next hresult, UInt32.ofNat_add, add_assoc]
    split
    · exact ⟨hcount, by rw [finish, hb, hsame.config]; exact h.burst_le,
        fun hres => (by cases hres), hids'⟩
    · rename_i hall
      have hn' : n = r.candidates.length := hok (by simpa using hall)
      refine IdsFrom.handles (r := { r' with burst := r'.burst + 1, nextBurst := env.burstEnd +
        r'.config.burstInterval }) ⟨hcount, ?_, fun _ => ?_, hids'⟩ (hres.trans hresult)
        ((sendConfirm_quiet _ env env.burstNow).handles none)
      · dsimp only
        rw [hb, hsame.config]
        exact hburst.1
      · change r'.nextTransactionID = start + UInt32.ofNat (r'.candidates.length * (r'.burst + 1))
        rw [hnext, h.next hresult, hn', hcand, hb, Nat.mul_add_one, UInt32.ofNat_add, add_assoc]
  · exact h.handles hresult ((r.sendConfirm_quiet env env.now).handles none)

end PunchRun

/-! ## Two runs and a network -/

inductive Party where
  | a
  | b
  deriving DecidableEq

def Party.other : Party → Party
  | .a => .b
  | .b => .a

/-- A packet on the network. -/
structure Sent where
  sender : Party
  data : Bytes
  dst : UDPAddr

/-- A packet that a run has read, with the source address that it had there. -/
structure Delivery where
  receiver : Party
  packet : Sent
  source : UDPAddr

/-- The runs, the packets that they have sent, and those that were delivered. -/
structure PunchNet where
  runs : Party → PunchRun
  sent : List Sent
  delivered : List Delivery

inductive PunchEvent where
  /-- A run goes on to its read. -/
  | send (p : Party) (env : SendEnv)
  /-- The network delivers a packet, under any source address, to any run. -/
  | deliver (p : Party) (k : Nat) (source : UDPAddr) (env : ReceiveEnv)
  /-- A read without a packet. -/
  | idle (p : Party) (failed : Bool) (env : ReceiveEnv)
  /-- A datagram that is no packet of this conversation. -/
  | stray (p : Party) (data : Bytes) (source : UDPAddr) (env : ReceiveEnv)
  /-- A run goes on after the write of a CONFIRM_ACK. -/
  | record (p : Party) (now : Nat)

namespace PunchNet

/-- The run `p` gets to `res.1` and sends `res.2`. -/
def update (s : PunchNet) (p : Party) (res : PunchRun × List Datagram) : PunchNet :=
  { s with
    runs := Function.update s.runs p res.1
    sent := s.sent ++ res.2.map fun d => ⟨p, d.1, d.2⟩ }

/-- The run is not at the head of its loop or at its read: it has returned or has yet to record a
confirmation. -/
def Busy (s : PunchNet) (p : Party) : Prop := (s.runs p).result.isSome ∨ (s.runs p).acknowledging

instance (s : PunchNet) (p : Party) : Decidable (s.Busy p) := inferInstanceAs (Decidable (_ ∨ _))

/-- One event; a run that has returned does nothing. -/
def step (s : PunchNet) : PunchEvent → PunchNet
  | .send p env => if s.Busy p then s else s.update p ((s.runs p).send env)
  | .deliver p k source env =>
    if s.Busy p then s
    else
      match s.sent[k]? with
      | none => s
      | some packet =>
        { s.update p ((s.runs p).receive (.packet packet.data source) env) with
          delivered := s.delivered ++ [⟨p, packet, source⟩] }
  | .idle p failed env =>
    if s.Busy p then s
    else s.update p ((s.runs p).receive (if failed then .failed else .nothing) env)
  | .stray p data source env =>
    if s.Busy p ∨
      (parsePunchPacket (data.take 64)).any fun control => control.conv = (s.runs p).conv then s
    else s.update p ((s.runs p).receive (.packet data source) env)
  | .record p now => if (s.runs p).result.isSome then s else s.update p ((s.runs p).record now, [])

/-- Two runs before they have sent anything. -/
def start (runs : Party → PunchRun) : PunchNet := ⟨runs, [], []⟩

/-- The state after the events. -/
def runFrom (s : PunchNet) (es : List PunchEvent) : PunchNet := es.foldl step s

variable {s : PunchNet} {p : Party}

/-! ## What an event does -/

theorem result_of_not_busy (h : ¬ s.Busy p) : (s.runs p).result = none := by
  rw [← Option.not_isSome_iff_eq_none]
  exact (not_or.mp h).1

/-- The packet that the run `p` handles is one of those sent, and `ds` is its delivery. -/
def Comes (s : PunchNet) (p : Party) (recv : Option (PunchPacket × UDPAddr)) (ds : List Delivery) :
    Prop :=
  ∀ control source, recv = some (control, source) → ipEqual source.ip (s.runs p).remote.ip = true ∧
    ∃ packet ∈ s.sent, parsePunchPacket (packet.data.take 64) = some control ∧
      ds = [⟨p, packet, source⟩]

/-- What an event does: nothing, or one run goes on. -/
theorem step_cases (s : PunchNet) (e : PunchEvent) :
    s.step e = s ∨ ∃ p recv res ds, (s.runs p).result = none ∧
      PunchRun.Progress (s.runs p) recv res.1 res.2 ∧
      (∀ start count, PunchRun.IdsFrom start count (s.runs p) →
        PunchRun.IdsFrom start count res.1) ∧
      s.step e = { s.update p res with delivered := s.delivered ++ ds } ∧ s.Comes p recv ds := by
  have hids : ∀ p input env, (s.runs p).result = none → ∀ start count,
      PunchRun.IdsFrom start count (s.runs p) →
      PunchRun.IdsFrom start count ((s.runs p).receive input env).1 :=
    fun p input env hres start count h => h.handles hres ((s.runs p).receive_handles input env)
  cases e with
  | send p env =>
    unfold step
    dsimp only
    split
    · exact .inl rfl
    · rename_i hbusy
      have hres := result_of_not_busy hbusy
      refine .inr ⟨p, none, _, [], hres, (s.runs p).send_progress env,
        fun _ _ h => h.send hres env, ?_, fun _ _ h => (by cases h)⟩
      rw [append_nil]
      rfl
  | deliver p k source env =>
    unfold step
    dsimp only
    split
    · exact .inl rfl
    rename_i hbusy
    have hres := result_of_not_busy hbusy
    split
    · exact .inl rfl
    · rename_i packet hpacket
      refine .inr ⟨p, _, _, [⟨p, packet, source⟩], hres,
        ((s.runs p).receive_handles _ env).toProgress,
        hids p _ env hres, rfl, fun control source' h => ?_⟩
      obtain ⟨data, heq, hip, hparse, -⟩ := PunchRun.handled_eq_some h
      cases heq
      exact ⟨hip, packet, mem_of_getElem? hpacket, hparse, rfl⟩
  | idle p failed env =>
    unfold step
    dsimp only
    split
    · exact .inl rfl
    · rename_i hbusy
      have hres := result_of_not_busy hbusy
      refine .inr ⟨p, _, _, [], hres,
        ((s.runs p).receive_handles (if failed then .failed else .nothing) env).toProgress,
          hids p _ env hres, ?_,
        fun control source h => ?_⟩
      · rw [append_nil]
        rfl
      · obtain ⟨data, heq, -⟩ := PunchRun.handled_eq_some h
        split at heq <;> cases heq
  | stray p data source env =>
    unfold step
    dsimp only
    split
    · exact .inl rfl
    · rename_i hbusy
      obtain ⟨hbusy, hstray⟩ := not_or.mp hbusy
      have hres := result_of_not_busy hbusy
      refine .inr ⟨p, _, _, [], hres,
        ((s.runs p).receive_handles (.packet data source) env).toProgress,
        hids p _ env hres, ?_, fun control source' h => ?_⟩
      · rw [append_nil]
        rfl
      · obtain ⟨data', heq, -, hparse, hconv⟩ := PunchRun.handled_eq_some h
        cases heq
        refine absurd ?_ hstray
        rw [hparse]
        exact decide_eq_true hconv
  | record p now =>
    unfold step
    dsimp only
    split
    · exact .inl rfl
    · rename_i hres
      rw [Option.not_isSome_iff_eq_none] at hres
      have hhandles := (s.runs p).record_handles now
      refine .inr ⟨p, none, ((s.runs p).record now, []), [], hres, hhandles.toProgress,
        fun _ _ h => h.handles hres hhandles, ?_, fun _ _ h => (by cases h)⟩
      rw [append_nil]
      rfl

/-- A run that has written a CONFIRM_ACK sets `peerConfirmed` before it does anything else. -/
theorem acknowledging_next (hack : (s.runs p).acknowledging) (e : PunchEvent) :
    (s.step e).runs p = s.runs p ∨ ((s.step e).runs p).peerConfirmed := by
  have hidle : ∀ q res, ¬ s.Busy q → (s.update q res).runs p = s.runs p := by
    intro q res hq
    have hne : p ≠ q := by
      rintro rfl
      exact hq (.inr hack)
    exact Function.update_of_ne hne ..
  unfold step
  cases e with
  | send q env =>
    dsimp only
    split
    · exact .inl rfl
    · exact .inl (hidle q _ ‹_›)
  | deliver q k source env =>
    dsimp only
    split
    · exact .inl rfl
    split
    · exact .inl rfl
    · exact .inl (hidle q _ ‹_›)
  | idle q failed env =>
    dsimp only
    split
    · exact .inl rfl
    · exact .inl (hidle q _ ‹_›)
  | stray q data source env =>
    dsimp only
    split
    · exact .inl rfl
    · rename_i hstray
      exact .inl (hidle q _ (not_or.mp hstray).1)
  | record q now =>
    dsimp only
    split
    · exact .inl rfl
    by_cases hq : p = q
    · subst hq
      refine .inr ?_
      have hself : (s.update p ((s.runs p).record now, [])).runs p = (s.runs p).record now :=
        Function.update_self ..
      rw [hself, PunchRun.record, if_pos hack, PunchRun.succeed]
      split <;> rfl
    · exact .inl (Function.update_of_ne hq ..)

/-! ## The invariant -/

/-- The run `p` has read a packet of the other run from a source with a property. -/
def Got (s : PunchNet) (p : Party) (data : Bytes) (P : UDPAddr → Prop) : Prop :=
  ∃ d ∈ s.delivered, d.receiver = p ∧ d.packet.sender = p.other ∧ d.packet.data = data ∧ P d.source

/-- The invariant of two runs with disjoint ids. -/
structure Inv (conv : UInt64) (start : Party → UInt32) (count : Party → Nat) (s : PunchNet) :
    Prop where
  conv_eq : ∀ p, (s.runs p).conv = conv
  ids : ∀ p, PunchRun.IdsFrom (start p) (count p) (s.runs p)
  sent : ∀ m ∈ s.sent, (s.runs m.sender).Justified m.data
  inbound : ∀ p id src, (s.runs p).inboundTransactions.lookup id = some src →
    id ∈ (s.runs p.other).outboundTransactions
  selected : ∀ p endpoint, (s.runs p).selectedRemote = some endpoint →
    (s.runs p).selectedTransactionID ∈ (s.runs p).outboundTransactions ∧
      ipEqual endpoint.ip (s.runs p).remote.ip = true ∧
      s.Got p (buildPunchPacket .checkAck conv (s.runs p).selectedTransactionID) (· = endpoint)
  localConfirmed : ∀ p, (s.runs p).localConfirmed → (s.runs p.other).Acknowledged ∧
    ∃ endpoint, (s.runs p).selectedRemote = some endpoint ∧
      s.Got p (buildPunchPacket .confirmAck conv (s.runs p).selectedTransactionID)
        (·.string = endpoint.string)
  acknowledged : ∀ p, (s.runs p).Acknowledged → (s.runs p.other).selectedRemote.isSome
  success : ∀ p, (s.runs p).successDeadline.isSome →
    (s.runs p).localConfirmed ∧ (s.runs p).Acknowledged
  result : ∀ p endpoint, (s.runs p).result = some (.ok (some endpoint)) →
    (s.runs p).successDeadline.isSome ∧ (s.runs p).selectedRemote = some endpoint

/-- The two runs take different ids. -/
def DisjointIds (start : Party → UInt32) (count : Party → Nat) : Prop :=
  ∀ i < count .a, ∀ j < count .b, start .a + UInt32.ofNat i ≠ start .b + UInt32.ofNat j

section

variable {conv : UInt64} {start : Party → UInt32} {count : Party → Nat} {control : PunchPacket}
  {packet : Sent}

theorem eq_or_other (z p : Party) : z = p ∨ z = p.other := by
  cases z <;> cases p <;> simp [Party.other]

theorem other_ne (p : Party) : p.other ≠ p := by
  cases p <;> decide

variable {id : UInt32}

theorem Inv.not_both (h : Inv conv start count s) (hd : DisjointIds start count)
    (hid : id ∈ (s.runs p).outboundTransactions) : id ∉ (s.runs p.other).outboundTransactions := by
  intro hid'
  obtain ⟨i, hi, rfl⟩ := (h.ids p).ids id hid
  obtain ⟨j, hj, heq⟩ := (h.ids p.other).ids _ hid'
  cases p with
  | a => exact hd i hi j hj heq
  | b => exact hd j hj i hi heq.symm

/-- A packet that can be read was built by its sender with a reason. -/
theorem Inv.reason (h : Inv conv start count s) (hpacket : packet ∈ s.sent)
    (hparse : parsePunchPacket (packet.data.take 64) = some control) :
    packet.data = buildPunchPacket control.packetType conv control.transactionID ∧
      (s.runs packet.sender).Reason control.packetType control.transactionID := by
  obtain ⟨packetType, id, hdata, hreason⟩ := h.sent packet hpacket
  rw [h.conv_eq] at hdata
  have hlen : (buildPunchPacket packetType conv id).length ≤ 64 := by
    simp [buildPunchPacket, be64, be32]
  rw [hdata, take_of_length_le hlen, parsePunchPacket_build] at hparse
  cases hparse
  exact ⟨hdata, hreason⟩

/-- The id of a CHECK_ACK or a CONFIRM_ACK is one of the run that it does not come from. -/
theorem Inv.sender_of_ack (h : Inv conv start count s) (hd : DisjointIds start count)
    (hin : ((s.runs packet.sender).inboundTransactions.lookup control.transactionID).isSome)
    (hown : control.transactionID ∈ (s.runs p).outboundTransactions) : packet.sender = p.other := by
  obtain ⟨src, hsrc⟩ := Option.isSome_iff_exists.mp hin
  have hout := h.inbound _ _ _ hsrc
  rcases eq_or_other packet.sender p with hp | hp
  · rw [hp] at hout
    exact absurd hout (h.not_both hd hown)
  · exact hp

/-- The id of a CHECK or a CONFIRM is one of the run that it comes from. -/
theorem Inv.sender_of_own (h : Inv conv start count s) (hd : DisjointIds start count)
    (hout : id ∈ (s.runs packet.sender).outboundTransactions)
    (hother : id ∈ (s.runs p.other).outboundTransactions) : packet.sender = p.other := by
  rcases eq_or_other packet.sender p with hp | hp
  · rw [hp] at hout
    exact absurd hother (h.not_both hd hout)
  · exact hp

theorem Got.mono {data : Bytes} {P : UDPAddr → Prop} {s' : PunchNet} (h : s.Got p data P)
    (hs : ∀ d ∈ s.delivered, d ∈ s'.delivered) : s'.Got p data P := by
  obtain ⟨d, hd, hrest⟩ := h
  exact ⟨d, hs d hd, hrest⟩

variable {recv : Option (PunchPacket × UDPAddr)} {res : PunchRun × List Datagram}
  {ds : List Delivery}

/-- A new inbound transaction is one of the other run: a run drops its own ones. -/
theorem Inv.inbound_progress (h : Inv conv start count s)
    (hprogress : PunchRun.Progress (s.runs p) recv res.1 res.2) (hrecv : s.Comes p recv ds)
    {src : Bytes × String × Nat} (hid : res.1.inboundTransactions.lookup id = some src) :
    id ∈ (s.runs p.other).outboundTransactions := by
  rcases hprogress.inbound_new id src hid with hid | ⟨source, hrec, hnot⟩
  · exact h.inbound p id src hid
  · obtain ⟨-, packet, hpacket, hparse, -⟩ := hrecv _ _ hrec
    obtain ⟨-, hreason⟩ := h.reason hpacket hparse
    rcases eq_or_other packet.sender p with hp | hp
    · rw [hp] at hreason
      exact absurd hreason hnot
    · exact hp ▸ hreason

theorem got_append (hdata : packet.data = data) (hsender : packet.sender = p.other)
    {source : UDPAddr} {P : UDPAddr → Prop} (hsource : P source) (s : PunchNet) :
    { s with delivered := s.delivered ++ [⟨p, packet, source⟩] : PunchNet }.Got p data P :=
  ⟨⟨p, packet, source⟩, mem_append_right _ (mem_singleton_self _), rfl, hsender, hdata, hsource⟩

section

variable (h : Inv conv start count s) (hd : DisjointIds start count)
  (hprogress : PunchRun.Progress (s.runs p) recv res.1 res.2) (hrecv : s.Comes p recv ds)

include h hd hprogress hrecv

/-- A selection answers a CHECK_ACK of the other run. -/
theorem Inv.selected_progress {endpoint : UDPAddr} (hsel : res.1.selectedRemote = some endpoint) :
    res.1.selectedTransactionID ∈ res.1.outboundTransactions ∧
      ipEqual endpoint.ip res.1.remote.ip = true ∧
      { s with delivered := s.delivered ++ ds : PunchNet }.Got p
        (buildPunchPacket .checkAck conv res.1.selectedTransactionID) (· = endpoint) := by
  rcases hprogress.selected_new endpoint hsel with hsel' | ⟨hrec, hown⟩
  · obtain ⟨hown, hip, hgot⟩ := h.selected p endpoint hsel'
    obtain ⟨-, hid⟩ := hprogress.selected (hsel' ▸ rfl)
    rw [hid, hprogress.remote]
    exact ⟨hprogress.outbound hown, hip, hgot.mono fun d hd => mem_append_left ds hd⟩
  · obtain ⟨hip, packet, hpacket, hparse, rfl⟩ := hrecv _ _ hrec
    obtain ⟨hdata, hreason⟩ := h.reason hpacket hparse
    have hsender := h.sender_of_ack hd hreason hown
    exact ⟨hprogress.outbound hown, hprogress.remote ▸ hip,
      got_append (P := (· = endpoint)) hdata hsender rfl s⟩

/-- A CONFIRM_ACK for the selected transaction comes from the other run. -/
theorem Inv.local_progress (hlocal : res.1.localConfirmed) :
    (s.runs p.other).Acknowledged ∧ ∃ endpoint, res.1.selectedRemote = some endpoint ∧
      { s with delivered := s.delivered ++ ds : PunchNet }.Got p
        (buildPunchPacket .confirmAck conv res.1.selectedTransactionID)
          (·.string = endpoint.string) := by
  rcases hprogress.local_new hlocal with hlocal | ⟨source, hrec, hstring⟩
  · obtain ⟨hpeer, endpoint, hsel, hgot⟩ := h.localConfirmed p hlocal
    obtain ⟨hremote, hid⟩ := hprogress.selected (hsel ▸ rfl)
    rw [hid, hremote]
    exact ⟨hpeer, endpoint, hsel, hgot.mono fun d hd => mem_append_left ds hd⟩
  · obtain ⟨endpoint, hsel, hstring⟩ := Option.map_eq_some_iff.mp hstring
    obtain ⟨hremote, hid⟩ := hprogress.selected (hsel ▸ rfl)
    obtain ⟨hown, -, -⟩ := h.selected p endpoint hsel
    obtain ⟨-, packet, hpacket, hparse, rfl⟩ := hrecv _ _ hrec
    obtain ⟨hdata, hreason⟩ := h.reason hpacket hparse
    have hsender := h.sender_of_ack hd hreason.1 hown
    rw [hid, hremote]
    exact ⟨hsender ▸ hreason.2, endpoint, hsel, got_append hdata hsender hstring.symm s⟩

/-- A CONFIRM for an inbound transaction comes from the other run, which has selected. -/
theorem Inv.peer_progress (hpeer : res.1.Acknowledged) :
    (s.runs p.other).selectedRemote.isSome := by
  rcases hprogress.peer_new hpeer with hpeer | ⟨id, source, hrec, hin⟩
  · exact h.acknowledged p hpeer
  · obtain ⟨src, hsrc⟩ := Option.isSome_iff_exists.mp hin
    obtain ⟨-, packet, hpacket, hparse, -⟩ := hrecv _ _ hrec
    obtain ⟨-, hreason⟩ := h.reason hpacket hparse
    obtain ⟨endpoint, hendpoint⟩ := Option.isSome_iff_exists.mp hreason.1
    obtain ⟨hout, -, -⟩ := h.selected packet.sender endpoint hendpoint
    rw [hreason.2] at hout
    exact h.sender_of_own hd hout (h.inbound p id src hsrc) ▸ hreason.1

/-- One run goes on. -/
theorem Inv.advance (hres : (s.runs p).result = none)
    (hids : ∀ start count, PunchRun.IdsFrom start count (s.runs p) →
      PunchRun.IdsFrom start count res.1) :
    Inv conv start count { s.update p res with delivered := s.delivered ++ ds } := by
  have hself : (s.update p res).runs p = res.1 := Function.update_self ..
  have hother : (s.update p res).runs p.other = s.runs p.other :=
    Function.update_of_ne (other_ne p) ..
  have hgrows : ∀ q, PunchRun.Grows (s.runs q) ((s.update p res).runs q) := by
    intro q
    rcases eq_or_other q p with rfl | rfl
    · rw [hself]
      exact hprogress.toGrows
    · rw [hother]
      exact .refl _
  have hold : ∀ d ∈ s.delivered, d ∈ s.delivered ++ ds := fun d hd => mem_append_left ds hd
  constructor
  · intro q
    exact (hgrows q).conv.trans (h.conv_eq q)
  · intro q
    rcases eq_or_other q p with rfl | rfl
    · rw [hself]
      exact hids _ _ (h.ids q)
    · rw [hother]
      exact h.ids p.other
  · intro m hm
    rcases mem_append.mp hm with hm | hm
    · exact (h.sent m hm).mono (hgrows m.sender)
    · obtain ⟨d, hd, rfl⟩ := mem_map.mp hm
      rw [hself]
      exact hprogress.out_ok d hd
  · intro q id src hid
    refine (hgrows q.other).outbound ?_
    rcases eq_or_other q p with rfl | rfl
    · rw [hself] at hid
      exact h.inbound_progress hprogress hrecv hid
    · rw [hother] at hid
      exact h.inbound p.other id src hid
  · intro q endpoint hsel
    rcases eq_or_other q p with rfl | rfl
    · rw [hself] at hsel ⊢
      exact h.selected_progress hd hprogress hrecv hsel
    · rw [hother] at hsel ⊢
      obtain ⟨hown, hip, hgot⟩ := h.selected p.other endpoint hsel
      exact ⟨hown, hip, hgot.mono hold⟩
  · intro q hlocal
    rcases eq_or_other q p with rfl | rfl
    · rw [hself] at hlocal ⊢
      obtain ⟨hpeer, hsel⟩ := h.local_progress hd hprogress hrecv hlocal
      exact ⟨(hgrows q.other).acknowledged hpeer, hsel⟩
    · rw [hother] at hlocal ⊢
      obtain ⟨hpeer, endpoint, hsel, hgot⟩ := h.localConfirmed p.other hlocal
      exact ⟨(hgrows p.other.other).acknowledged hpeer, endpoint, hsel, hgot.mono hold⟩
  · intro q hpeer
    have hsel : (s.runs q.other).selectedRemote.isSome := by
      rcases eq_or_other q p with rfl | rfl
      · rw [hself] at hpeer
        exact h.peer_progress hd hprogress hrecv hpeer
      · rw [hother] at hpeer
        exact h.acknowledged p.other hpeer
    rw [((hgrows q.other).selected hsel).1]
    exact hsel
  · intro q hsuccess
    rcases eq_or_other q p with rfl | rfl
    · rw [hself] at hsuccess ⊢
      rcases hprogress.success_new hsuccess with hsuccess | hboth
      · obtain ⟨hlocal, hpeer⟩ := h.success q hsuccess
        exact ⟨hprogress.localConfirmed hlocal, hprogress.acknowledged hpeer⟩
      · exact hboth
    · rw [hother] at hsuccess ⊢
      exact h.success p.other hsuccess
  · intro q endpoint hresult
    rcases eq_or_other q p with rfl | rfl
    · rw [hself] at hresult ⊢
      rcases hprogress.result_new endpoint hresult with hresult | hnew
      · rw [hres] at hresult
        cases hresult
      · exact hnew
    · rw [hother] at hresult ⊢
      exact h.result p.other endpoint hresult

end

theorem Inv.step (h : Inv conv start count s) (hd : DisjointIds start count) (e : PunchEvent) :
    Inv conv start count (s.step e) := by
  rcases s.step_cases e with heq | ⟨p, recv, res, ds, hres, hprogress, hids, heq, hrecv⟩
  · rw [heq]
    exact h
  · rw [heq]
    exact h.advance hd hprogress hrecv hres hids

theorem Inv.runFrom (h : Inv conv start count s) (hd : DisjointIds start count)
    (es : List PunchEvent) : Inv conv start count (s.runFrom es) := by
  induction es generalizing s with
  | nil => exact h
  | cons e es ih => exact ih (h.step hd e)

theorem inv_start {requested : Party → UDPAddr} {config : Party → PunchConfig} {now : Party → Nat}
    {init : Party → PunchRun}
    (hnew : ∀ p, PunchRun.newPunch conv (requested p) (config p) (start p) (now p) = .ok (init p)) :
    Inv conv start (fun p => (init p).transactionCount) (PunchNet.start init) := by
  have hfields : ∀ p, (init p).conv = conv ∧ (init p).nextTransactionID = start p ∧
      (init p).outboundTransactions = ∅ ∧ (init p).inboundTransactions = ∅ ∧ (init p).burst = 0 ∧
      (init p).selectedRemote = none ∧ (init p).successDeadline = none ∧
      (init p).localConfirmed = false ∧ (init p).peerConfirmed = false ∧
        (init p).acknowledging = false ∧ (init p).result = none := by
    intro p
    obtain ⟨remote, -, heq⟩ := map_eq_ok.mp (hnew p)
    rw [← heq]
    exact ⟨rfl, rfl, rfl, rfl, rfl, rfl, rfl, rfl, rfl, rfl, rfl⟩
  simp only [forall_and] at hfields
  obtain ⟨hconv, hnext, hout, hin, hburst, hsel, hsuccess, hlocal, hpeer, hack, hresult⟩ := hfields
  refine ⟨hconv, fun p => ⟨rfl, ?_, fun _ => ?_, ?_⟩, nofun, ?_, ?_, ?_, ?_, ?_, ?_⟩ <;>
    simp [PunchNet.start, PunchRun.Acknowledged, hnext, hout, hin, hburst, hsel, hsuccess, hlocal,
      hpeer, hack, hresult]

/-- The address that a run was given stays. -/
theorem remote_runFrom (s : PunchNet) (es : List PunchEvent) (q : Party) :
    ((s.runFrom es).runs q).remote = (s.runs q).remote := by
  induction es generalizing s with
  | nil => rfl
  | cons e es ih =>
    refine (ih (s.step e)).trans ?_
    rcases s.step_cases e with heq | ⟨p, recv, res, ds, -, hprogress, -, heq, -⟩
    · rw [heq]
    · rw [heq]
      by_cases hq : q = p
      · subst hq
        simpa [PunchNet.update] using hprogress.remote
      · simp [PunchNet.update, hq]

/-- When a run returns an endpoint, the other run has selected an endpoint that it has read a
CHECK_ACK of this run from, and has recorded its confirmation, or has written the CONFIRM_ACK for it
and records it before it does anything else. The endpoint has the IP that was asked for, and the run
has read a CONFIRM_ACK of the other run for its selected transaction from there. -/
theorem punch_agreement {conv : UInt64} {requested : Party → UDPAddr} {config : Party → PunchConfig}
    {start : Party → UInt32} {now : Party → Nat} {init : Party → PunchRun}
    (hnew : ∀ p, PunchRun.newPunch conv (requested p) (config p) (start p) (now p) = .ok (init p))
    (hd : DisjointIds start fun p => (init p).transactionCount) (es : List PunchEvent) (p : Party)
    (endpoint : UDPAddr)
    (hreturn : (((PunchNet.start init).runFrom es).runs p).result = some (.ok (some endpoint))) :
    let s := (PunchNet.start init).runFrom es
    (∃ peer, (s.runs p.other).selectedRemote = some peer ∧
        s.Got p.other (buildPunchPacket .checkAck conv (s.runs p.other).selectedTransactionID)
          (· = peer)) ∧
      ((s.runs p.other).peerConfirmed ∨ (s.runs p.other).acknowledging ∧
        ∀ e, (s.step e).runs p.other = s.runs p.other ∨ ((s.step e).runs p.other).peerConfirmed) ∧
      canonical endpoint.ip = canonical (requested p).ip ∧
      (s.runs p).selectedRemote = some endpoint ∧
      s.Got p (buildPunchPacket .confirmAck conv (s.runs p).selectedTransactionID)
        (·.string = endpoint.string) := by
  intro s
  have hinv : Inv conv start (fun p => (init p).transactionCount) s :=
    (inv_start hnew).runFrom hd es
  obtain ⟨hsuccess, hsel⟩ := hinv.result p endpoint hreturn
  obtain ⟨hlocal, hpeer⟩ := hinv.success p hsuccess
  obtain ⟨hrecorded, endpoint', hsel', hgot⟩ := hinv.localConfirmed p hlocal
  obtain ⟨peer, hpeerSel⟩ := Option.isSome_iff_exists.mp (hinv.acknowledged p hpeer)
  obtain ⟨-, hip, -⟩ := hinv.selected p endpoint hsel
  obtain rfl := Option.some_inj.mp (hsel.symm.trans hsel')
  refine ⟨⟨peer, hpeerSel, (hinv.selected p.other peer hpeerSel).2.2⟩,
    hrecorded.imp_right fun hack => ⟨hack, acknowledging_next hack⟩, ?_, hsel, hgot⟩
  obtain ⟨remote, hremote, heq⟩ := map_eq_ok.mp (hnew p)
  have hinit : (s.runs p).remote = remote := by
    rw [remote_runFrom]
    exact (congrArg PunchRun.remote heq).symm
  rw [hinit] at hip
  exact (canonical_of_ipEqual hip).trans (normalizePunchAddr_ok hremote).1

/-- A run with one candidate and one burst. -/
def oneBurst (remote : UDPAddr) (nextTransactionID : UInt32) : PunchRun where
  conv := 7
  remote := remote
  config := ⟨1, 1, 10, 100, 10, 30⟩
  nextTransactionID := nextTransactionID
  outboundTransactions := ∅
  inboundTransactions := ∅
  nextBurst := 0
  hardDeadline := 100
  burst := 0
  selectedTransactionID := 0
  selectedRemote := none
  nextConfirm := 0
  successDeadline := none
  localConfirmed := false
  peerConfirmed := false
  acknowledging := false
  result := none

/-- Two runs that find each other behind other ports than those they were given: the packets are
delivered in the order in which they are sent. One run returns while the other one has yet to record
its confirmation. -/
def meeting : List PunchEvent :=
  let env : SendEnv := ⟨false, 1, fun _ => false, 1, 1, false, 1, false, false⟩
  let late : SendEnv := ⟨false, 50, fun _ => false, 50, 50, false, 50, false, false⟩
  let recv : ReceiveEnv := ⟨false, 2, 2, false⟩
  let a : UDPAddr := ⟨[198, 51, 100, 1], 4001, ""⟩
  let b : UDPAddr := ⟨[203, 0, 113, 1], 5001, ""⟩
  [.send .a env, .send .b env, .deliver .b 0 a recv, .deliver .a 1 b recv, .deliver .a 2 b recv,
    .deliver .b 3 a recv, .deliver .b 4 a recv, .deliver .a 5 b recv, .record .a 2,
      .deliver .a 6 b recv,
    .send .a late]

/-- The runs of `meeting`. -/
def meetingRun : Party → PunchRun
  | .a => oneBurst ⟨[203, 0, 113, 1], 5000, ""⟩ 100
  | .b => oneBurst ⟨[198, 51, 100, 1], 4000, ""⟩ 200

theorem meetingRun_new (p : Party) :
    PunchRun.newPunch 7 (meetingRun p).remote ⟨1, 1, 10, 100, 10, 30⟩
    (meetingRun p).nextTransactionID 0 = .ok (meetingRun p) := by
  cases p <;> rfl

theorem meetingRun_disjoint : DisjointIds (fun p => (meetingRun p).nextTransactionID)
    fun p => (meetingRun p).transactionCount := by
  unfold DisjointIds
  decide +kernel

theorem punch_agreement_meeting :
    let s := (PunchNet.start meetingRun).runFrom (meeting ++ [.record .b 51])
    (s.runs .a).result = some (.ok (some ⟨[203, 0, 113, 1], 5001, ""⟩)) ∧
      (s.runs .b).peerConfirmed ∧
      s.Got .a (buildPunchPacket .confirmAck 7 (s.runs .a).selectedTransactionID)
        (·.string = ([203, 0, 113, 1], "", 5001)) := by
  intro s
  have hreturn : (s.runs .a).result = some (.ok (some ⟨[203, 0, 113, 1], 5001, ""⟩)) ∧
      (s.runs .b).peerConfirmed := by
    decide +kernel
  obtain ⟨-, -, -, -, hgot⟩ := punch_agreement meetingRun_new meetingRun_disjoint _ .a _ hreturn.1
  exact ⟨hreturn.1, hreturn.2, hgot⟩

/-- A run may return before the other one has recorded its confirmation. -/
theorem returns_before_recorded :
    (∀ p, PunchRun.newPunch 7 (meetingRun p).remote ⟨1, 1, 10, 100, 10, 30⟩
      (meetingRun p).nextTransactionID 0 = .ok (meetingRun p)) ∧
    DisjointIds (fun p => (meetingRun p).nextTransactionID)
      (fun p => (meetingRun p).transactionCount) ∧
    (((PunchNet.start meetingRun).runFrom meeting).runs .a).result =
      some (.ok (some ⟨[203, 0, 113, 1], 5001, ""⟩)) ∧
    (((PunchNet.start meetingRun).runFrom meeting).runs .b).peerConfirmed = false :=
  ⟨meetingRun_new, meetingRun_disjoint, by decide +kernel, by decide +kernel⟩

end

end PunchNet

end Halo.P2p
