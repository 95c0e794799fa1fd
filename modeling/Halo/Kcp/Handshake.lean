import Halo.Kcp.Redirect

/-!
# The handshake of a listener

The receive loop of a listener (`packetInput`) and its control loop (`enetHandle`) run at the same
time. The control loop gives an id to the address of a SYN and stores it, and sends the reply with
the id after it has released the lock; a datagram of the receive loop may come between the two
(`Threads`, the event `send`). The id is a counter and a random number, so no id is given out twice,
and the first datagram from the address takes the stored id away.

* `handshake`: a session is created only for an id that was given to the address of its first
  datagram, no id is given to two addresses, no id has two sessions, and the dialling side composes
  the same id.
* `session_before_reply`: a session can be there before the reply with its id has been sent.
-/

namespace Halo.Kcp

open List

variable {κ : Type} (ops : KcpOps κ) (byteCheck : Bool)

/-- The id in a control packet. -/
def Enet.id (enet : Enet) : UInt64 := rawConvOf enet.sessionId enet.conv

/-- The id that `DialKCP` and `DialChanConn` compose from the reply to their SYN. -/
def dialReply (udpPayload : Bytes) : Except String UInt64 :=
  match parseEnet udpPayload with
  | .error _ => .error "recv packet format error"
  | .ok enet =>
    if enet.connType ≠ .est ∨ enet.enetType ≠ enetClientConnectKey then
      .error "recv packet format error"
    else .ok (rawConvOf enet.sessionId enet.conv)

/-- A listener and the control packets that its control loop has made and not yet sent. -/
structure Threads (κ : Type) where
  l : Listener κ
  reply : List Enet

/-- A step of the listener, or the sending of a reply by the control loop. -/
inductive ThreadEvent (κ : Type) where
  | call (e : SessionEvent κ)
  | send

/-- A round of a listener and its threads. -/
abbrev ThreadRound (κ : Type) := Round (Threads κ) (ThreadEvent κ) Enet

namespace Threads

/-- A new listener. -/
def start : Threads κ := ⟨.serveConn, []⟩

/-- A step and the control packets it sends. The control loop takes a control packet when it has
sent the reply to the one before. -/
def step (t : Threads κ) : ThreadEvent κ → Threads κ × List Enet
  | .call (.enetHandle conv now) =>
    if t.reply = [] then
      (⟨(t.l.enetHandle ops conv now).1, (t.l.enetHandle ops conv now).2⟩, [])
    else (t, [])
  | .call e =>
    (⟨(Endpoint.listenerStep ops byteCheck t.l e).1, t.reply⟩,
      (Endpoint.listenerStep ops byteCheck t.l e).2)
  | .send => (⟨t.l, []⟩, t.reply)

/-- The control packet that a step takes from the channel. -/
def taken (t : Threads κ) : ThreadEvent κ → Option Enet
  | .call (.enetHandle _ _) => if t.reply = [] then t.l.enetNotifyChan.head? else none
  | _ => none

/-- The round handles a SYN. -/
def handlesSyn (r : ThreadRound κ) : Bool :=
  match r.pre.taken r.event with
  | some enet => enet.connType = .syn
  | none => false

/-- The replies with an id that a round makes. -/
def replies (r : ThreadRound κ) : List Enet :=
  match r.pre.taken r.event with
  | some _ => (step ops byteCheck r.pre r.event).1.reply.filter fun enet => enet.connType = .est
  | none => []

/-! ## The ids given out -/

/-- The reply with a new id that a step makes. -/
def grant (t : Threads κ) (e : ThreadEvent κ) : List Enet :=
  match e, t.taken e with
  | .call (.enetHandle conv _), some enet =>
    if enet.connType = .syn ∧ enet.enetType = enetClientConnectKey ∧
        t.l.remoteAddrEnetSynMap.lookup enet.addr = none then
      [⟨enet.addr, t.l.sessionIdCounter + 1, conv, .est, enetClientConnectKey⟩]
    else []
  | _, _ => []

/-- What the listener knows of the ids given out: the replies with new ids, in order. -/
structure Grants (granted : List Enet) (l : Listener κ) : Prop where
  counter : l.sessionIdCounter = .ofNat granted.length
  numbered : ∀ (i : Nat) (enet : Enet), granted[i]? = some enet →
    enet.sessionId = .ofNat (i + 1) ∧ enet.connType = .est ∧ enet.enetType = enetClientConnectKey
  waiting : ∀ (addr : String) (syn : EnetSyn), l.remoteAddrEnetSynMap.lookup addr = some syn →
    (⟨addr, syn.sessionId, syn.conv, .est, enetClientConnectKey⟩ : Enet) ∈ granted ∧
      syn.rawConv = rawConvOf syn.sessionId syn.conv ∧ syn.rawConv ∉ l.all.map UDPSession.conv
  created : ∀ s ∈ l.all, ∃ enet ∈ granted, enet.id = s.conv
  nodup : (l.all.map UDPSession.conv).Nodup

variable {l l' : Listener κ} {enet e : Enet} {t : Threads κ} {r : ThreadRound κ}

/-- Two ids given out are the same only if they were given at once. -/
theorem Grants.id_inj {granted : List Enet} (h : Grants granted l)
    (hlen : granted.length < 2 ^ 32) {a b : Enet} (ha : a ∈ granted) (hb : b ∈ granted)
    (hid : a.id = b.id) : a = b := by
  obtain ⟨i, hi⟩ := List.mem_iff_getElem?.mp ha
  obtain ⟨j, hj⟩ := List.mem_iff_getElem?.mp hb
  have hi' := (List.getElem?_eq_some_iff.mp hi).1
  have hj' := (List.getElem?_eq_some_iff.mp hj).1
  have hsession : a.sessionId = b.sessionId := by
    have h₁ := ((rawConvOf_eq_iff _ _ _).mp hid).1
    have h₂ := ((rawConvOf_eq_iff b.sessionId b.conv b.id).mp rfl).1
    exact h₁.trans h₂.symm
  rw [(h.numbered i a hi).1, (h.numbered j b hj).1] at hsession
  have hnat : (UInt32.ofNat (i + 1)).toNat = (UInt32.ofNat (j + 1)).toNat := by rw [hsession]
  rw [UInt32.toNat_ofNat', UInt32.toNat_ofNat'] at hnat
  obtain rfl : i = j := by omega
  exact Option.some.inj (hi.symm.trans hj)

/-- A step that gives out no id and creates no session; stored ids may be dropped. -/
structure Keeps (l l' : Listener κ) : Prop where
  counter : l'.sessionIdCounter = l.sessionIdCounter
  convs : l'.all.map UDPSession.conv = l.all.map UDPSession.conv
  waiting : ∀ (addr : String) (syn : EnetSyn), l'.remoteAddrEnetSynMap.lookup addr = some syn →
    l.remoteAddrEnetSynMap.lookup addr = some syn

theorem Grants.keep {granted : List Enet} (h : Grants granted l) (hk : Keeps l l') :
    Grants granted l' where
  counter := hk.counter.trans h.counter
  numbered := h.numbered
  waiting addr syn hsyn := by
    rw [hk.convs]
    exact h.waiting addr syn (hk.waiting addr syn hsyn)
  created s hs := by
    have hmem : s.conv ∈ l.all.map UDPSession.conv := by
      rw [← hk.convs]
      exact mem_map_of_mem hs
    obtain ⟨s₀, hs₀, hconv⟩ := mem_map.mp hmem
    obtain ⟨enet, henet, hid⟩ := h.created s₀ hs₀
    exact ⟨enet, henet, hid.trans hconv⟩
  nodup := by
    rw [hk.convs]
    exact h.nodup

/-! ## Steps -/

variable {ops byteCheck}

theorem Keeps.of_eq (hcounter : l'.sessionIdCounter = l.sessionIdCounter)
    (hall : l'.all = l.all) (hmap : l'.remoteAddrEnetSynMap = l.remoteAddrEnetSynMap) :
    Keeps l l' :=
  ⟨hcounter, by rw [hall], fun addr syn hsyn => by rwa [hmap] at hsyn⟩

theorem Keeps.modify (l : Listener κ) (n : Nat) {f : UDPSession κ → UDPSession κ}
    (hf : ∀ s, (f s).conv = s.conv) : Keeps l (l.modify n f) := by
  refine ⟨rfl, ?_, fun _ _ hsyn => hsyn⟩
  apply ext_getElem?
  intro m
  simp only [Listener.modify, getElem?_map, getElem?_modify]
  split
  · cases l.all[m]? with
    | none => rfl
    | some s => exact congrArg some (hf s)
  · simp

theorem Keeps.closeSession (l : Listener κ) (n : Nat) (enetType : UInt32) :
    Keeps l (l.closeSession ops n enetType).1 := by
  unfold Listener.closeSession
  split
  · exact .of_eq rfl rfl rfl
  · rename_i s hs
    refine ⟨rfl, ?_, fun _ _ hsyn => hsyn⟩
    dsimp only
    rw [map_set, UDPSession.closeReason_conv]
    apply ext_getElem?
    intro m
    by_cases hm : n = m
    · subst hm
      have hlt : n < (l.all.map UDPSession.conv).length := by
        rw [List.length_map]
        exact (List.getElem?_eq_some_iff.mp hs).1
      rw [List.getElem?_set_self hlt, List.getElem?_map, hs]
      rfl
    · rw [getElem?_set_ne hm]

/-- The control loop gives out at most the id that `grant` names. -/
theorem handleEnet_keeps (l : Listener κ) (enet : Enet) (conv now : UInt32)
    (h : ¬ (enet.connType = .syn ∧ enet.enetType = enetClientConnectKey ∧
      l.remoteAddrEnetSynMap.lookup enet.addr = none)) :
    Keeps l (l.handleEnet ops enet conv now).1 := by
  unfold Listener.handleEnet
  split
  · rename_i hsyn
    unfold Listener.handleSyn
    split
    · exact .of_eq rfl rfl rfl
    · rename_i hkey
      split
      · exact .of_eq rfl rfl rfl
      · rename_i hnone
        exact absurd ⟨hsyn, not_not.mp hkey, hnone⟩ h
  · exact .of_eq rfl rfl rfl
  · split
    · exact .of_eq rfl rfl rfl
    · exact .closeSession l _ _
  · exact .of_eq rfl rfl rfl

/-- A new id is the next one of the counter, and is stored. -/
theorem Grants.handleSyn {granted : List Enet} (h : Grants granted l)
    (hsyn : enet.connType = .syn) (hkey : enet.enetType = enetClientConnectKey)
    (hnone : l.remoteAddrEnetSynMap.lookup enet.addr = none) (hlen : granted.length + 1 < 2 ^ 32)
    (conv now : UInt32) :
    Grants (granted ++ [⟨enet.addr, l.sessionIdCounter + 1, conv, .est, enetClientConnectKey⟩])
      (l.handleEnet ops enet conv now).1 := by
  have heq : (l.handleEnet ops enet conv now).1 = { l with
      sessionIdCounter := l.sessionIdCounter + 1
      remoteAddrEnetSynMap := l.remoteAddrEnetSynMap.insert enet.addr
        ⟨l.sessionIdCounter + 1, conv, rawConvOf (l.sessionIdCounter + 1) conv, now⟩ } := by
    simp only [Listener.handleEnet, hsyn, Listener.handleSyn, hkey, ne_eq, not_true_eq_false,
      if_false, hnone]
  have hnext : l.sessionIdCounter + 1 = .ofNat (granted.length + 1) := by
    rw [h.counter]
    exact (UInt32.ofNat_add _ _).symm
  rw [heq]
  refine ⟨?_, fun i a ha => ?_, fun addr syn hlookup => ?_, fun s hs => ?_, h.nodup⟩
  · rw [length_append]
    exact hnext
  · rw [getElem?_append] at ha
    split at ha
    · exact h.numbered i a ha
    · have hi : i - granted.length < 1 := (List.getElem?_eq_some_iff.mp ha).1
      obtain rfl : i = granted.length := by omega
      rw [Nat.sub_self] at ha
      cases ha
      exact ⟨hnext, rfl, rfl⟩
  · rw [Table.lookup_insert_eq_ite] at hlookup
    split at hlookup
    · rename_i haddr
      cases hlookup
      refine ⟨by rw [haddr]; simp, rfl, fun hmem => ?_⟩
      -- the id of a session was given out earlier, with another number
      obtain ⟨s, hs, hconv⟩ := mem_map.mp hmem
      obtain ⟨a, ha, hid⟩ := h.created s hs
      obtain ⟨i, hi⟩ := List.mem_iff_getElem?.mp ha
      have hlt := (List.getElem?_eq_some_iff.mp hi).1
      have hsession : a.sessionId = l.sessionIdCounter + 1 := by
        have h₁ := ((rawConvOf_eq_iff _ _ _).mp (hid.trans hconv)).1
        exact h₁.trans ((rawConvOf_eq_iff _ _ _).mp rfl).1.symm
      rw [(h.numbered i a hi).1, hnext] at hsession
      have hnat := congrArg UInt32.toNat hsession
      rw [UInt32.toNat_ofNat', UInt32.toNat_ofNat'] at hnat
      omega
    · obtain ⟨hmem, hrest⟩ := h.waiting addr syn hlookup
      exact ⟨mem_append_left _ hmem, hrest⟩
  · obtain ⟨a, ha, hid⟩ := h.created s hs
    exact ⟨a, mem_append_left _ ha, hid⟩

variable (ops) in
/-- What the first datagram with an unknown id does: nothing to the sessions, or it creates the
session of the id that was given to its address. -/
theorem newSession_cases (l : Listener κ) (conv : UInt64) (data : Bytes) (addr : String) :
    Keeps l (l.newSession ops conv data addr) ∨
      ∃ syn, l.remoteAddrEnetSynMap.lookup addr = some syn ∧ syn.rawConv = conv ∧
        l.newSession ops conv data addr = { l with
          all := l.all ++ [(UDPSession.newUDPSession ops conv addr).kcpInput ops data]
          sessions := l.sessions.insert conv l.all.length
          chAccepts := l.chAccepts ++ [l.all.length]
          remoteAddrEnetSynMap := l.remoteAddrEnetSynMap.erase addr } := by
  unfold Listener.newSession
  split
  · exact .inl (.of_eq rfl rfl rfl)
  · rename_i syn hsyn
    dsimp only
    split
    · rename_i hcond
      exact .inr ⟨syn, hsyn, hcond.1, rfl⟩
    · refine .inl ⟨rfl, rfl, fun a b hb => ?_⟩
      rw [Table.lookup_erase_eq_ite] at hb
      split at hb
      · cases hb
      · exact hb

variable (ops byteCheck) in
/-- What a datagram does: nothing to the sessions, or it creates the session of the id in it, which
was given to its address. -/
theorem packetInput_cases (l : Listener κ) (data : Bytes) (addr : String) :
    Keeps l (l.packetInput ops byteCheck data addr) ∨
      ∃ syn, ikcpOverhead byteCheck ≤ data.length ∧
        l.remoteAddrEnetSynMap.lookup addr = some syn ∧ syn.rawConv = le64 data ∧
        l.packetInput ops byteCheck data addr = { l with
          all := l.all ++ [(UDPSession.newUDPSession ops (le64 data) addr).kcpInput ops data]
          sessions := l.sessions.insert (le64 data) l.all.length
          chAccepts := l.chAccepts ++ [l.all.length]
          remoteAddrEnetSynMap := l.remoteAddrEnetSynMap.erase addr } := by
  unfold Listener.packetInput
  split
  · split <;> exact .inl (.of_eq rfl rfl rfl)
  split
  · rename_i hlen
    split
    · exact .inl (.modify l _ fun s => Listener.sessionInput_conv s _ data addr)
    · rcases newSession_cases ops l (le64 data) data addr with hkeep | ⟨syn, hsyn, hconv, heq⟩
      · exact .inl hkeep
      · exact .inr ⟨syn, hlen, hsyn, hconv, heq⟩
  · exact .inl (.of_eq rfl rfl rfl)

theorem Grants.packetInput {granted : List Enet} (h : Grants granted l)
    (hlen : granted.length < 2 ^ 32) (data : Bytes) (addr : String) :
    Grants granted (l.packetInput ops byteCheck data addr) := by
  rcases packetInput_cases ops byteCheck l data addr with
    hkeep | ⟨syn, -, hsyn, hconv, heq⟩
  · exact h.keep hkeep
  obtain ⟨hmem, hraw, hfresh⟩ := h.waiting addr syn hsyn
  have hnew : ((UDPSession.newUDPSession ops (le64 data) addr).kcpInput ops data).conv =
      le64 data := by
    simp [UDPSession.newUDPSession]
  rw [heq]
  refine ⟨h.counter, h.numbered, fun a b hb => ?_, fun s hs => ?_, ?_⟩
  · rw [Table.lookup_erase_eq_ite] at hb
    split at hb
    · cases hb
    · rename_i hne
      obtain ⟨hmem', hraw', hfresh'⟩ := h.waiting a b hb
      refine ⟨hmem', hraw', fun hin => ?_⟩
      rw [map_append, mem_append] at hin
      rcases hin with hold | hin
      · exact hfresh' hold
      · -- the id of the new session was given to another address
        have hb' : b.rawConv = syn.rawConv := by
          rw [map_singleton, mem_singleton, hnew] at hin
          rw [hin, hconv]
        have hsame := h.id_inj hlen hmem' hmem (hraw'.symm.trans (hb'.trans hraw))
        exact hne (congrArg Enet.addr hsame)
  · rcases mem_append.mp hs with hold | hs
    · exact h.created s hold
    · rw [mem_singleton.mp hs, hnew]
      exact ⟨_, hmem, hraw.symm.trans hconv⟩
  · rw [map_append, map_singleton, hnew]
    refine nodup_append.mpr ⟨h.nodup, nodup_singleton _, fun x hx y hy => ?_⟩
    rintro rfl
    rw [mem_singleton.mp hy, ← hconv] at hx
    exact hfresh hx

/-- The ids given out after a step. -/
theorem Grants.step {granted : List Enet} (h : Grants granted t.l)
    {e : ThreadEvent κ} (hlen : (granted ++ t.grant e).length < 2 ^ 32) :
    Grants (granted ++ t.grant e) (Threads.step ops byteCheck t e).1.l := by
  have hlen' : granted.length < 2 ^ 32 := by
    rw [length_append] at hlen
    omega
  have hnone : t.grant e = [] → Keeps t.l (Threads.step ops byteCheck t e).1.l →
      Grants (granted ++ t.grant e) (Threads.step ops byteCheck t e).1.l := by
    intro hgrant hkeep
    rw [hgrant, append_nil]
    exact h.keep hkeep
  cases e with
  | send => exact hnone rfl (.of_eq rfl rfl rfl)
  | call e =>
    cases e with
    | datagram data addr =>
      have hgrant : t.grant (.call (.datagram data addr)) = [] := rfl
      rw [hgrant, append_nil]
      exact h.packetInput hlen' data addr
    | enetExpire now =>
      refine hnone rfl ⟨rfl, rfl, fun addr syn hsyn => ?_⟩
      have hsweep : (Table.sweep _ t.l.remoteAddrEnetSynMap).lookup addr = some syn := hsyn
      rw [Table.lookup_sweep] at hsweep
      exact (Option.filter_eq_some_iff.mp hsweep).1
    | accept => exact hnone rfl (.of_eq rfl rfl rfl)
    | setRemoteAddrChange n enable => exact hnone rfl (.modify t.l n fun _ => rfl)
    | close n enetType => exact hnone rfl (.closeSession t.l n enetType)
    | transport n f => exact hnone rfl (.modify t.l n fun _ => rfl)
    | enetHandle conv now =>
      by_cases hreply : t.reply = []
      · cases hchan : t.l.enetNotifyChan with
        | nil =>
          refine hnone (by simp [grant, taken, hreply, hchan]) ?_
          simp only [Threads.step, hreply, if_true, Listener.enetHandle, hchan]
          exact .of_eq rfl rfl rfl
        | cons enet rest =>
          have hstep : (Threads.step ops byteCheck t (.call (.enetHandle conv now))).1.l =
              (({ t.l with enetNotifyChan := rest } : Listener κ).handleEnet ops enet conv
                now).1 := by
            simp only [Threads.step, hreply, if_true, Listener.enetHandle, hchan]
          have hrest : Grants granted ({ t.l with enetNotifyChan := rest } : Listener κ) :=
            h.keep (.of_eq rfl rfl rfl)
          have htaken : t.taken (.call (.enetHandle conv now)) = some enet := by
            simp [taken, hreply, hchan]
          rw [hstep]
          by_cases hfresh : enet.connType = .syn ∧ enet.enetType = enetClientConnectKey ∧
              t.l.remoteAddrEnetSynMap.lookup enet.addr = none
          · have hgrant : t.grant (.call (.enetHandle conv now)) =
                [⟨enet.addr, t.l.sessionIdCounter + 1, conv, .est, enetClientConnectKey⟩] := by
              simp only [grant, htaken]
              exact if_pos hfresh
            rw [hgrant] at hlen ⊢
            exact hrest.handleSyn hfresh.1 hfresh.2.1 hfresh.2.2 (by simpa using hlen) conv now
          · have hgrant : t.grant (.call (.enetHandle conv now)) = [] := by
              simp only [grant, htaken]
              exact if_neg hfresh
            rw [hgrant, append_nil]
            exact hrest.keep (handleEnet_keeps _ enet conv now hfresh)
      · refine hnone (by simp [grant, taken, hreply]) ?_
        simp only [Threads.step, if_neg hreply]
        exact .of_eq rfl rfl rfl

/-! ## Replies -/

variable (ops byteCheck) in
/-- The control packets of the control loop, when it takes one from the channel. -/
theorem step_of_taken {e : ThreadEvent κ} (h : t.taken e = some enet) :
    ∃ conv now rest, e = .call (.enetHandle conv now) ∧ t.l.enetNotifyChan = enet :: rest ∧
      (step ops byteCheck t e).1.reply =
        (({ t.l with enetNotifyChan := rest } : Listener κ).handleEnet ops enet conv now).2 := by
  unfold taken at h
  split at h
  · rename_i conv now
    split at h
    · rename_i hreply
      obtain ⟨rest, hchan⟩ := head?_eq_some_iff.mp h
      refine ⟨conv, now, rest, rfl, hchan, ?_⟩
      simp only [step, hreply, if_true, Listener.enetHandle, hchan]
    · cases h
  · cases h

/-- The replies with an id that the control loop makes to a control packet. -/
theorem handleEnet_est {conv now : UInt32} (h : e ∈ (l.handleEnet ops enet conv now).2)
    (hest : e.connType = .est) :
    enet.connType = .syn ∧ enet.enetType = enetClientConnectKey ∧
      ((∃ syn, l.remoteAddrEnetSynMap.lookup enet.addr = some syn ∧
          e = ⟨enet.addr, syn.sessionId, syn.conv, .est, enetClientConnectKey⟩) ∨
        (l.remoteAddrEnetSynMap.lookup enet.addr = none ∧
          e = ⟨enet.addr, l.sessionIdCounter + 1, conv, .est, enetClientConnectKey⟩)) := by
  unfold Listener.handleEnet at h
  split at h
  · rename_i hsyn
    unfold Listener.handleSyn at h
    split at h
    · cases h
    · rename_i hkey
      rw [ne_eq, not_not] at hkey
      refine ⟨hsyn, hkey, ?_⟩
      split at h
      · rename_i syn hlookup
        rw [mem_singleton, hkey] at h
        exact .inl ⟨syn, hlookup, h⟩
      · rename_i hnone
        rw [mem_singleton, hkey] at h
        exact .inr ⟨hnone, h⟩
  · cases h
  · split at h
    · cases h
    · -- the closed session sends a FIN
      unfold Listener.closeSession UDPSession.closeReason at h
      split at h
      · cases h
      · dsimp only at h
        split at h
        · cases h
        · rw [mem_singleton.mp h] at hest
          cases hest
  · rw [mem_singleton.mp h] at hest
    cases hest

/-- Every reply has an id given out before, or the one given out at this round. -/
theorem mem_of_replies {granted : List Enet} (h : Grants granted r.pre.l)
    (he : e ∈ replies ops byteCheck r) : e ∈ granted ++ r.pre.grant r.event := by
  unfold replies at he
  split at he
  · rename_i enet htaken
    obtain ⟨hmem, hest⟩ := mem_filter.mp he
    obtain ⟨conv, now, rest, hevent, hchan, hreply⟩ :=
      step_of_taken ops byteCheck htaken
    rw [hreply] at hmem
    obtain ⟨hsyn, hkey, ⟨syn, hlookup, rfl⟩ | ⟨hnone, rfl⟩⟩ :=
      handleEnet_est hmem (by simpa using hest)
    · exact mem_append_left _ (h.waiting _ _ hlookup).1
    · refine mem_append_right _ ?_
      rw [hevent] at htaken ⊢
      simp only [grant, htaken]
      rw [if_pos ⟨hsyn, hkey, hnone⟩]
      exact mem_singleton_self _
  · cases he

/-- The reply with a new id is one of the replies. -/
theorem replies_of_grant (h : e ∈ r.pre.grant r.event) : e ∈ replies ops byteCheck r := by
  unfold grant at h
  split at h
  · rename_i conv now enet hevent htaken
    split at h
    · rename_i hfresh
      obtain ⟨conv', now', rest, hevent', hchan, hreply⟩ :=
        step_of_taken ops byteCheck htaken
      rw [hevent] at hevent'
      cases hevent'
      unfold replies
      rw [htaken, hreply]
      obtain ⟨hsyn, hkey, hnone⟩ := hfresh
      have hout : (({ r.pre.l with enetNotifyChan := rest } : Listener κ).handleEnet ops enet conv
          now).2 = [⟨enet.addr, r.pre.l.sessionIdCounter + 1, conv, .est, enet.enetType⟩] := by
        simp only [Listener.handleEnet, hsyn, Listener.handleSyn, hkey, ne_eq, not_true_eq_false,
          if_false, hnone]
      rw [hout, hkey]
      simpa using h
    · cases h
  · cases h

/-! ## Runs -/

/-- The replies with new ids of a trace. -/
def granted (tr : List (ThreadRound κ)) : List Enet :=
  tr.flatMap fun r => r.pre.grant r.event

/-- At most one id is given out for each SYN. -/
theorem length_granted_le (tr : List (ThreadRound κ)) :
    (granted tr).length ≤ tr.countP handlesSyn := by
  have hround (r : ThreadRound κ) :
      (r.pre.grant r.event).length ≤ if handlesSyn r then 1 else 0 := by
    unfold grant
    split
    · rename_i enet hevent htaken
      split
      · rename_i hfresh
        have hsyn : handlesSyn r = true := by simp [handlesSyn, htaken, hfresh.1]
        rw [if_pos hsyn]
        exact le_rfl
      · exact Nat.zero_le _
    · exact Nat.zero_le _
  induction tr with
  | nil => exact le_rfl
  | cons r tr ih =>
    have hr := hround r
    have hcons : granted (r :: tr) = r.pre.grant r.event ++ granted tr := rfl
    rw [hcons, length_append, countP_cons]
    omega

/-- The ids given out in a run. -/
theorem grants_run (es : List (ThreadEvent κ))
    (h : (granted (trace (step ops byteCheck) start es)).length < 2 ^ 32) :
    Grants (granted (trace (step ops byteCheck) start es))
      (run (step ops byteCheck) start es).l := by
  induction es using List.reverseRecOn with
  | nil =>
    exact ⟨rfl, by simp [granted, trace], by simp [start, Listener.serveConn],
      by simp [start, Listener.serveConn], by simp [start, Listener.serveConn]⟩
  | append_singleton es e ih =>
    have hsnoc : granted (trace (step ops byteCheck) start (es ++ [e])) =
        granted (trace (step ops byteCheck) start es) ++
          (run (step ops byteCheck) start es).grant e := by
      rw [trace_append]
      simp [granted, trace]
    rw [hsnoc] at h ⊢
    rw [run_append]
    exact (ih (by rw [length_append] at h; omega)).step h

theorem Keeps.length_eq (h : Keeps l l') : l'.all.length = l.all.length := by
  have hlen := congrArg List.length h.convs
  simpa using hlen

/-- The control loop creates no session. -/
theorem length_enetHandle (l : Listener κ) (conv now : UInt32) :
    (l.enetHandle ops conv now).1.all.length = l.all.length := by
  unfold Listener.enetHandle
  split
  · rfl
  · rename_i enet rest _
    by_cases hfresh : enet.connType = .syn ∧ enet.enetType = enetClientConnectKey ∧
        l.remoteAddrEnetSynMap.lookup enet.addr = none
    · obtain ⟨hsyn, hkey, hnone⟩ := hfresh
      simp only [Listener.handleEnet, hsyn, Listener.handleSyn, hkey, ne_eq, not_true_eq_false,
        if_false, hnone]
    · exact (handleEnet_keeps { l with enetNotifyChan := rest } enet conv now hfresh).length_eq

/-- A session that a step creates. -/
theorem created_by {e : ThreadEvent κ} {n : Nat} {s : UDPSession κ}
    (hpre : t.l.all[n]? = none) (hpost : (step ops byteCheck t e).1.l.all[n]? = some s) :
    ∃ data addr syn, e = .call (.datagram data addr) ∧ ikcpOverhead byteCheck ≤ data.length ∧
      le64 data = s.conv ∧ s.remote = addr ∧ t.l.remoteAddrEnetSynMap.lookup addr = some syn ∧
      syn.rawConv = s.conv := by
  have hsame : (step ops byteCheck t e).1.l.all.length ≠ t.l.all.length := by
    have hlt := (List.getElem?_eq_some_iff.mp hpost).1
    have hle := List.getElem?_eq_none_iff.mp hpre
    omega
  cases e with
  | send => exact absurd rfl hsame
  | call e =>
    cases e with
    | datagram data addr =>
      rcases packetInput_cases ops byteCheck t.l data addr with hk | ⟨syn, hlen, hsyn, hconv, heq⟩
      · exact absurd hk.length_eq hsame
      · have hpost' : (t.l.packetInput ops byteCheck data addr).all[n]? = some s := hpost
        rw [heq, getElem?_append_right (getElem?_eq_none_iff.mp hpre)] at hpost'
        have hs := mem_singleton.mp (mem_of_getElem? hpost')
        have hs₁ : s.conv = le64 data := by rw [hs]; simp [UDPSession.newUDPSession]
        have hs₂ : s.remote = addr := by rw [hs]; simp [UDPSession.newUDPSession]
        exact ⟨data, addr, syn, rfl, hlen, hs₁.symm, hs₂, hsyn, hconv.trans hs₁.symm⟩
    | enetHandle conv now =>
      refine absurd ?_ hsame
      simp only [step]
      split
      · exact length_enetHandle t.l conv now
      · rfl
    | enetExpire now => exact absurd rfl hsame
    | accept => exact absurd rfl hsame
    | close m enetType => exact absurd (Keeps.closeSession t.l m enetType).length_eq hsame
    | _ => exact absurd (length_modify ..) hsame

/-- A reply that a round sends was made by the control loop. -/
theorem sent_of_out (hout : r.out = (step ops byteCheck r.pre r.event).2) (he : e ∈ r.out)
    (hest : e.connType = .est) : e ∈ r.pre.reply := by
  obtain ⟨t, event, out⟩ := r
  dsimp only at hout he ⊢
  subst hout
  cases event with
  | send => exact he
  | call event =>
    cases event with
    | enetHandle conv now =>
      simp only [step] at he
      split at he <;> cases he
    | close n enetType =>
      have hclose : e ∈ (t.l.closeSession ops n enetType).2 := he
      unfold Listener.closeSession UDPSession.closeReason at hclose
      split at hclose
      · cases hclose
      · dsimp only at hclose
        split at hclose
        · cases hclose
        · rw [mem_singleton.mp hclose] at hest
          cases hest
    | _ => cases he

/-- What the control loop has yet to send after a step. -/
theorem reply_cases {event : ThreadEvent κ} {out : List Enet}
    (he : e ∈ (step ops byteCheck t event).1.reply) (hest : e.connType = .est) :
    e ∈ t.reply ∨ e ∈ replies ops byteCheck ⟨t, event, out⟩ := by
  cases event with
  | send => cases he
  | call event =>
    cases event with
    | enetHandle conv now =>
      by_cases hreply : t.reply = []
      · cases hchan : t.l.enetNotifyChan with
        | nil =>
          simp only [step, hreply, if_true, Listener.enetHandle, hchan] at he
          cases he
        | cons enet rest =>
          have htaken : t.taken (.call (.enetHandle conv now)) = some enet := by
            simp [taken, hreply, hchan]
          right
          rw [replies, htaken]
          exact mem_filter.mpr ⟨he, by simpa using hest⟩
      · simp only [step, if_neg hreply] at he
        exact .inl he
    | _ => exact .inl he

/-- A reply that is to be sent was made by a round of the run. -/
theorem made_of_reply (es : List (ThreadEvent κ))
    (he : e ∈ (run (step ops byteCheck) start es).reply) (hest : e.connType = .est) :
    ∃ r ∈ trace (step ops byteCheck) start es, e ∈ replies ops byteCheck r := by
  induction es using List.reverseRecOn with
  | nil => cases he
  | append_singleton es event ih =>
    rw [run_append] at he
    rw [trace_append]
    rcases reply_cases he hest with hold | hnew
    · obtain ⟨r, hr, hmem⟩ := ih hold
      exact ⟨r, mem_append_left _ hr, hmem⟩
    · exact ⟨_, mem_append_right _ (mem_singleton_self _), hnew⟩

/-- What the control loop has yet to send stays so or is sent. -/
theorem reply_kept (event : ThreadEvent κ) (he : e ∈ t.reply) :
    e ∈ (step ops byteCheck t event).1.reply ∨ e ∈ (step ops byteCheck t event).2 := by
  cases event with
  | send => exact .inr he
  | call event =>
    cases event with
    | enetHandle conv now =>
      have hreply : t.reply ≠ [] := ne_nil_of_mem he
      simp only [step, if_neg hreply]
      exact .inl he
    | _ => exact .inl he

/-- A reply that a round has made has been sent, or is what the control loop sends next. -/
theorem sent_or_next (es : List (ThreadEvent κ)) (hr : r ∈ trace (step ops byteCheck) start es)
    (he : e ∈ replies ops byteCheck r) :
    e ∈ (run (step ops byteCheck) start es).reply ∨
      ∃ r' ∈ trace (step ops byteCheck) start es, e ∈ r'.out := by
  induction es using List.reverseRecOn with
  | nil => cases hr
  | append_singleton es event ih =>
    rw [trace_append] at hr ⊢
    rw [run_append]
    rcases mem_append.mp hr with hr | hr
    · rcases ih hr with hreply | ⟨r', hr', hout⟩
      · rcases reply_kept event hreply with hkept | hsent
        · exact .inl hkept
        · exact .inr ⟨_, mem_append_right _ (mem_singleton_self _), hsent⟩
      · exact .inr ⟨r', mem_append_left _ hr', hout⟩
    · rw [mem_singleton.mp hr] at he
      unfold replies at he
      split at he
      · exact .inl (mem_filter.mp he).1
      · cases he

/-- The dialling side composes the id of the reply. -/
theorem dialReply_buildEnet (hest : e.connType = .est) (hkey : e.enetType = enetClientConnectKey) :
    dialReply (buildEnet e.connType e.enetType e.sessionId e.conv) = .ok e.id := by
  obtain ⟨rawConv, hparse⟩ := parseEnet_buildEnet e.connType e.enetType e.sessionId e.conv
  rw [dialReply, hparse]
  simp [hest, hkey, Enet.id]

/-- The handshake of a listener, in every run that handles fewer than `2 ^ 32` SYNs: a session is
created only by a datagram with its id, from the address for which an earlier round of the control
loop has made a reply with that id, which has been sent or is what the control loop sends next; the
replies that are sent are those that were made; no two addresses get the same id; the sessions of
the run, also the closed ones, have different ids; and the dialling side composes the id from the
reply. -/
theorem handshake (es : List (ThreadEvent κ))
    (h : (trace (step ops byteCheck) start es).countP handlesSyn < 2 ^ 32) :
    (∀ l₁ r l₂, trace (step ops byteCheck) start es = l₁ ++ r :: l₂ →
      ∀ (n : Nat) (s : UDPSession κ), r.pre.l.all[n]? = none →
        (step ops byteCheck r.pre r.event).1.l.all[n]? = some s →
        ∃ data addr, r.event = .call (.datagram data addr) ∧ ikcpOverhead byteCheck ≤ data.length ∧
          le64 data = s.conv ∧ s.remote = addr ∧
          ∃ r' ∈ l₁, ∃ e ∈ replies ops byteCheck r', e.addr = addr ∧ e.id = s.conv ∧
            (e ∈ r.pre.reply ∨ ∃ r'' ∈ l₁, e ∈ r''.out)) ∧
    (∀ l₁ r l₂, trace (step ops byteCheck) start es = l₁ ++ r :: l₂ →
      ∀ e ∈ r.out, e.connType = .est → ∃ r' ∈ l₁, e ∈ replies ops byteCheck r') ∧
    (∀ r₁ ∈ trace (step ops byteCheck) start es, ∀ r₂ ∈ trace (step ops byteCheck) start es,
      ∀ e₁ ∈ replies ops byteCheck r₁, ∀ e₂ ∈ replies ops byteCheck r₂, e₁.id = e₂.id →
        e₁.addr = e₂.addr) ∧
    ((run (step ops byteCheck) start es).l.all.map UDPSession.conv).Nodup ∧
    (∀ r ∈ trace (step ops byteCheck) start es, ∀ e ∈ replies ops byteCheck r,
      dialReply (buildEnet e.connType e.enetType e.sessionId e.conv) = .ok e.id) := by
  have hlen : (granted (trace (step ops byteCheck) start es)).length < 2 ^ 32 :=
    (length_granted_le _).trans_lt h
  have hall := grants_run es hlen
  -- what is known before a round of the trace
  have hpre {l₁ l₂ : List (ThreadRound κ)} {r : ThreadRound κ}
      (hsplit : trace (step ops byteCheck) start es = l₁ ++ r :: l₂) :
      Grants (granted l₁) r.pre.l := by
    obtain ⟨es₁, es₂, rfl, rfl, hr, -, -⟩ := trace_split hsplit
    rw [hr]
    apply grants_run
    rw [hsplit] at hlen
    simp only [granted, flatMap_append, length_append] at hlen ⊢
    omega
  have hmade {r : ThreadRound κ} (hr : r ∈ trace (step ops byteCheck) start es) {e : Enet}
      (he : e ∈ replies ops byteCheck r) : e ∈ granted (trace (step ops byteCheck) start es) := by
    obtain ⟨l₁, l₂, hsplit⟩ := append_of_mem hr
    have hmem := mem_of_replies (hpre hsplit) he
    rw [hsplit]
    simp only [granted, flatMap_append, flatMap_cons, mem_append] at hmem ⊢
    exact hmem.imp_right .inl
  refine ⟨fun l₁ r l₂ hsplit n s hnone hsome => ?_, fun l₁ r l₂ hsplit e he hest => ?_,
    fun r₁ hr₁ r₂ hr₂ e₁ he₁ e₂ he₂ hid => ?_, hall.nodup, fun r hr e he => ?_⟩
  · obtain ⟨data, addr, syn, hevent, hover, hconv, hremote, hsyn, hraw⟩ := created_by hnone hsome
    obtain ⟨hmem, hraw', -⟩ := (hpre hsplit).waiting addr syn hsyn
    obtain ⟨r', hr', hgrant⟩ := mem_flatMap.mp hmem
    have hreplies : _ ∈ replies ops byteCheck r' := replies_of_grant hgrant
    obtain ⟨es₁, es₂, -, rfl, hr, -, -⟩ := trace_split hsplit
    refine ⟨data, addr, hevent, hover, hconv, hremote, r', hr', _, hreplies, rfl,
      hraw'.symm.trans hraw, ?_⟩
    rw [hr]
    exact sent_or_next es₁ hr' hreplies
  · obtain ⟨es₁, es₂, -, rfl, hr, hout, -⟩ := trace_split hsplit
    have hreply := sent_of_out hout he hest
    rw [hr] at hreply
    exact made_of_reply es₁ hreply hest
  · rw [hall.id_inj hlen (hmade hr₁ he₁) (hmade hr₂ he₂) hid]
  · obtain ⟨i, hi⟩ := mem_iff_getElem?.mp (hmade hr he)
    obtain ⟨-, hest, hkey⟩ := hall.numbered i e hi
    exact dialReply_buildEnet hest hkey

/-- A SYN and the first datagram of the session, from one address, and what happens between them. -/
def synThenData (between : List (ThreadEvent Unit)) : List (ThreadEvent Unit) :=
  [.call (.datagram (buildEnet .syn enetClientConnectKey 0 0) "192.0.2.7:5000"),
    .call (.enetHandle 5 0)] ++ between ++
    [.call (.datagram (leBytes 8 (rawConvOf 1 5).toNat ++ List.replicate 20 0) "192.0.2.7:5000")]

/-- The run with one SYN and its reply has one session. -/
theorem handshake_synThenData :
    (trace (step Endpoint.unitOps false) start (synThenData [.send])).countP handlesSyn = 1 ∧
      (run (step Endpoint.unitOps false) start (synThenData [.send])).l.all.length = 1 ∧
      (trace (step Endpoint.unitOps false) start (synThenData [.send])).flatMap Round.out =
        [⟨"192.0.2.7:5000", 1, 5, .est, enetClientConnectKey⟩] ∧
      ((run (step Endpoint.unitOps false) start (synThenData [.send])).l.all.map
        UDPSession.conv).Nodup :=
  ⟨by decide +kernel, by decide +kernel, by decide +kernel,
    (handshake (synThenData [.send]) (by decide +kernel)).2.2.2.1⟩

/-- The session is created although no reply has been sent: the datagram comes between the storing
of the id and the sending of the reply. -/
theorem session_before_reply :
    (run (step Endpoint.unitOps false) start (synThenData [])).l.all.map UDPSession.conv =
      [rawConvOf 1 5] ∧
      (trace (step Endpoint.unitOps false) start (synThenData [])).flatMap Round.out = [] := by
  decide +kernel

end Threads

end Halo.Kcp
