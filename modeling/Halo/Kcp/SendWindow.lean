import Halo.Kcp.Bounds

/-!
# The send window of KCP

In every run, whatever datagrams come in, the send buffer holds the segments from `sndUna` to
`sndNxt - 1`, numbered without a gap and fewer than `2 ^ 16` of them (`Window`). The scans of
`parse_una`, `parse_ack` and `parse_fastack` stop early, so what they leave rests on this order. A
segment leaves the buffer only for a received cumulative acknowledgement beyond its number, and its
data is freed only for a received acknowledgement of its number (`Kept`). `send_window` is both over
whole runs.
-/

namespace Halo.Kcp.KCP

open List

variable (byteCheck : Option (Bytes → UInt32))

/-- The send buffer holds the numbers from `sndUna` to `sndNxt`. -/
structure Window (k : KCP) : Prop where
  numbers_eq : k.sndBuf.map (·.sn) = numbers k.sndUna k.sndBuf.length
  sndNxt_eq : k.sndNxt = k.sndUna + .ofNat k.sndBuf.length
  length_lt : k.sndBuf.length < 2 ^ 16
  rmtWnd_lt : k.rmtWnd.toNat < 2 ^ 16
  fresh : ∀ seg ∈ k.sndQueue, seg.acked = 0

/-- The headers of the segments that a call takes from a datagram. -/
def heads (k : KCP) : KcpEvent → List Header
  | .input data _ _ _ => (k.segments byteCheck data).map (·.1)
  | _ => []

/-- What a call that hears the headers does with the segments of the send buffer: one that is gone
is before a received cumulative acknowledgement; one that is there was there before, with its data
unless its number has been acknowledged, or comes from the queue with its data. -/
structure Kept (heads : List Header) (k k' : KCP) : Prop where
  gone : ∀ s ∈ k.sndBuf, s.sn ∉ k'.sndBuf.map (·.sn) → ∃ h ∈ heads, 0 < itimediff h.una s.sn
  there : ∀ s' ∈ k'.sndBuf, (∃ s ∈ k.sndBuf, Answered heads s s') ∨
    ∃ s ∈ k.sndQueue, s'.data = s.data ∧ s'.acked = 0 ∧ s'.sn ∉ k.sndBuf.map (·.sn)

section

variable {byteCheck} {k k' : KCP}

/-! ## Numbers -/

theorem numbered_sn (conv : UInt64) (sn : UInt32) (segs : List Segment) :
    (numbered conv sn segs).map (·.sn) = numbers sn segs.length := by
  induction segs generalizing sn with
  | nil => rfl
  | cons seg rest ih =>
    rw [numbered, map_cons, ih, length_cons, numbers_succ]

variable {segs : List Segment} {heads : List Header} {k₁ : KCP}

theorem map_sn_of_forall₂ {R : Segment → Segment → Prop} (hR : ∀ {s s'}, R s s' → s'.sn = s.sn)
    {segs' : List Segment} (h : List.Forall₂ R segs segs') :
    segs'.map (·.sn) = segs.map (·.sn) := by
  induction h with
  | nil => rfl
  | cons hseg _ ih => rw [map_cons, map_cons, hR hseg, ih]

/-! ## The window -/

theorem newKCP_window (conv : UInt64) : (newKCP byteCheck conv).Window :=
  ⟨rfl, rfl, (by decide : 0 < 2 ^ 16), (by decide : (32 : UInt32).toNat < 2 ^ 16), forall_mem_nil _⟩

theorem Window.unaFirst (h : k.Window) : k.UnaFirst := by
  unfold UnaFirst
  have hnumbers := h.numbers_eq
  cases hbuf : k.sndBuf with
  | nil =>
    have hnxt := h.sndNxt_eq
    rw [hbuf] at hnxt
    simpa using hnxt.symm
  | cons seg rest =>
    rw [hbuf, length_cons, numbers_succ, map_cons, cons.injEq] at hnumbers
    exact hnumbers.1.symm

/-- The segments of a datagram take a part off the front. -/
theorem Window.heard (h : k.Window) (hk : Heard heads k k') : k'.Window := by
  obtain ⟨m, -, hkept⟩ := hk.sndBuf
  have hlen : k'.sndBuf.length = k.sndBuf.length - m := by
    rw [← hkept.length_eq, length_drop]
  have hsn : k'.sndBuf.map (·.sn) =
      numbers (k.sndUna + .ofNat (min m k.sndBuf.length)) (k.sndBuf.length - m) := by
    rw [map_sn_of_forall₂ Answered.sn hkept, map_drop, h.numbers_eq, drop_numbers]
  have hnxt : k'.sndNxt =
      k.sndUna + .ofNat (min m k.sndBuf.length) + .ofNat (k.sndBuf.length - m) := by
    rw [hk.sndNxt, h.sndNxt_eq, UInt32.add_assoc, ← UInt32.ofNat_add]
    congr 2
    omega
  have huna : k'.sndUna = k.sndUna + .ofNat (min m k.sndBuf.length) := by
    have hfirst := hk.sndUna h.unaFirst
    rw [UnaFirst, ← head?_map, hsn] at hfirst
    rw [hfirst]
    cases hrest : k.sndBuf.length - m with
    | zero =>
      rw [hrest] at hnxt
      simpa [numbers] using hnxt
    | succ n =>
      rw [numbers_succ]
      rfl
  refine ⟨?_, ?_, ?_, hk.rmtWnd h.rmtWnd_lt, hk.sndQueue ▸ h.fresh⟩
  · rw [hsn, hlen, huna]
  · rw [hnxt, hlen, huna]
  · have := h.length_lt
    omega

/-- The segments that a flush moves to the send buffer stay below the window. -/
theorem sendCount_le (una cwnd : UInt32) (len : Nat) (queue : List Segment) (hlen : len < 2 ^ 31)
    (hcwnd : cwnd.toNat < 2 ^ 31) :
    sendCount (una + cwnd) (una + .ofNat len) queue ≤ cwnd.toNat - len := by
  induction queue generalizing len with
  | nil => exact Nat.zero_le _
  | cons seg rest ih =>
    rw [sendCount]
    split
    · exact Nat.zero_le _
    · rename_i hbelow
      have hlt : len < cwnd.toNat := by
        by_contra hge
        apply hbelow
        rw [itimediff_nonneg, ← UInt32.ofNat_toNat (x := cwnd),
          toNat_sub_of_offsets una (by omega) (by omega), if_pos (by omega)]
        omega
      have hnext : una + .ofNat len + 1 = una + .ofNat (len + 1) := by
        rw [UInt32.ofNat_add, ← UInt32.add_assoc]
        rfl
      have := ih (len + 1) (by omega)
      rw [hnext]
      omega

theorem sendWindow_le (k : KCP) : k.sendWindow.toNat ≤ k.rmtWnd.toNat := by
  have hmin (a b : UInt32) : (min a b).toNat ≤ b.toNat := by
    show (if a ≤ b then a else b).toNat ≤ b.toNat
    split
    · exact UInt32.le_iff_toNat_le.mp ‹a ≤ b›
    · exact Nat.le_refl _
  unfold sendWindow
  dsimp only
  split
  · exact (hmin _ _).trans (hmin _ _)
  · exact hmin _ _

theorem sendCount_le_length (limit sn : UInt32) (queue : List Segment) :
    sendCount limit sn queue ≤ queue.length := by
  induction queue generalizing sn with
  | nil => exact Nat.le_refl 0
  | cons seg rest ih =>
    rw [sendCount]
    split
    · exact Nat.zero_le _
    · exact Nat.succ_le_succ (ih (sn + 1))

theorem newCount_le_length (k : KCP) (ackOnly : Bool) : k.newCount ackOnly ≤ k.sndQueue.length := by
  unfold newCount
  split
  · exact Nat.zero_le _
  · exact sendCount_le_length _ _ _

theorem Window.newCount_lt (h : k.Window) (ackOnly : Bool) :
    k.sndBuf.length + k.newCount ackOnly < 2 ^ 16 := by
  have hlen := h.length_lt
  have hrmt := h.rmtWnd_lt
  unfold newCount
  split
  · exact hlen
  · have hwnd := k.sendWindow_le
    have hcount :=
      sendCount_le k.sndUna k.sendWindow k.sndBuf.length k.sndQueue (by omega) (by omega)
    rw [← h.sndNxt_eq] at hcount
    omega

theorem length_numbered (conv : UInt64) (sn : UInt32) (segs : List Segment) :
    (numbered conv sn segs).length = segs.length := by
  rw [← length_map (·.sn), numbered_sn, length_numbers]

theorem length_flushBuf (k : KCP) (ackOnly : Bool) :
    (k.flushBuf ackOnly).length = k.sndBuf.length + k.newCount ackOnly := by
  rw [flushBuf, length_append, length_numbered, length_take,
    Nat.min_eq_left (k.newCount_le_length ackOnly)]

/-- A flush appends to the window. -/
theorem Window.flushed (h : k.Window) {ackOnly : Bool} (hk : k.Flushed ackOnly k') : k'.Window := by
  have hlen : k'.sndBuf.length = k.sndBuf.length + k.newCount ackOnly := by
    rw [← hk.sndBuf.length_eq, length_flushBuf]
  refine ⟨?_, ?_, ?_, hk.rmtWnd ▸ h.rmtWnd_lt, fun seg hseg => ?_⟩
  · rw [map_sn_of_forall₂ Segment.Same.sn hk.sndBuf, flushBuf, map_append, numbered_sn,
      h.numbers_eq, hk.sndUna, hlen, numbers_add, ← h.sndNxt_eq, length_take,
      Nat.min_eq_left (k.newCount_le_length ackOnly)]
  · rw [hk.sndNxt, hk.sndUna, hlen, h.sndNxt_eq, UInt32.add_assoc, UInt32.ofNat_add]
  · rw [hlen]
    exact h.newCount_lt ackOnly
  · rw [hk.sndQueue] at hseg
    exact h.fresh seg (mem_of_mem_drop hseg)

theorem Window.adjusted (h : k.Window) (hk : Adjusted k k') : k'.Window := by
  obtain ⟨_, _, _, _, _, rfl⟩ := hk
  exact { h with }

theorem Window.ends (h : k.Window) {r : KCP × List Bytes} (hr : k.Ends byteCheck r) :
    r.1.Window := by
  rcases hr with rfl | ⟨ackOnly, hflushed, -⟩
  · exact h
  · exact h.flushed hflushed

theorem Window.afterLoop (h : k.Window) {regular : Bool} {data : Bytes}
    (hk₁ : Adjusted (k.afterLoop byteCheck regular data) k₁) : k₁.Window :=
  (h.heard (inputAll_heard regular (k.segments byteCheck data) ⟨k, 0, false, false⟩)).adjusted hk₁

/-! ## The segments of the window -/

theorem mem_numbered {conv : UInt64} {sn : UInt32} {s : Segment}
    (h : s ∈ numbered conv sn segs) : ∃ q ∈ segs, s.data = q.data ∧ s.acked = q.acked := by
  induction segs generalizing sn with
  | nil => cases h
  | cons seg rest ih =>
    rcases mem_cons.mp h with rfl | h
    · exact ⟨seg, mem_cons_self, rfl, rfl⟩
    · obtain ⟨q, hq, hdata⟩ := ih h
      exact ⟨q, mem_cons_of_mem _ hq, hdata⟩

/-- The numbers that a flush gives are new. -/
theorem Window.new_number (h : k.Window) {n : Nat} (hn : n < 2 ^ 16) {s : Segment}
    (hlen : segs.length = n) (hs : s ∈ numbered k.conv k.sndNxt segs) :
    s.sn ∉ k.sndBuf.map (·.sn) := by
  have hmem : s.sn ∈ numbers k.sndNxt n := by
    rw [← hlen, ← numbered_sn k.conv]
    exact mem_map_of_mem hs
  obtain ⟨j, hj, heq⟩ := mem_map.mp hmem
  have hjn := mem_range.mp hj
  have hlt := h.length_lt
  rw [← heq, h.numbers_eq, h.sndNxt_eq, UInt32.add_assoc, ← UInt32.ofNat_add]
  exact offset_not_mem_numbers k.sndUna (Nat.le_add_right _ _) (by omega)

/-- The segments of a datagram alone. -/
theorem kept_heard (hk : Heard heads k k') : Kept heads k k' := by
  obtain ⟨m, hremoved, hans⟩ := hk.sndBuf
  refine ⟨fun s hs hnot => ?_, fun s' hs' => ?_⟩
  · rw [← take_append_drop m k.sndBuf] at hs
    rcases mem_append.mp hs with htake | hdrop
    · exact hremoved s htake
    · obtain ⟨s', hs', hans'⟩ := exists_of_forall₂_left hans hdrop
      exact absurd (mem_map_of_mem hs') (hans'.sn ▸ hnot)
  · obtain ⟨s, hs, hans'⟩ := exists_of_forall₂_right hans hs'
    exact .inl ⟨s, mem_of_mem_drop hs, hans'⟩

/-- The segments of a datagram, and a flush after them. -/
theorem Window.kept_flushed (h : k.Window) (hk : Heard heads k k₁)
    {ackOnly : Bool} (hflushed : k₁.Flushed ackOnly k') : Kept heads k k' := by
  have hkept := kept_heard hk
  refine ⟨fun s hs hnot => hkept.gone s hs fun hmem => hnot ?_, fun s' hs' => ?_⟩
  · rw [map_sn_of_forall₂ Segment.Same.sn hflushed.sndBuf, flushBuf, map_append]
    exact mem_append_left _ hmem
  · obtain ⟨s₁, hs₁, hsame⟩ := exists_of_forall₂_right hflushed.sndBuf hs'
    rcases mem_append.mp hs₁ with hbuf | hnew
    · have hsame' : Answered heads s₁ s' :=
        ⟨hsame.conv, hsame.cmd, hsame.frg, hsame.sn, .inl ⟨hsame.acked, hsame.data⟩⟩
      rcases hkept.there s₁ hbuf with ⟨s, hs, hans⟩ | ⟨q, hq, hdata, hacked, hsn⟩
      · exact .inl ⟨s, hs, hans.trans hsame'⟩
      · exact .inr ⟨q, hq, hsame.data.trans hdata, hsame.acked.trans hacked, hsame.sn ▸ hsn⟩
    · obtain ⟨q, hq, hdata, hacked⟩ := mem_numbered hnew
      have hqueue : q ∈ k.sndQueue := hk.sndQueue ▸ mem_of_mem_take hq
      have hcount := (h.heard hk).newCount_lt ackOnly
      rw [hk.settings.conv, hk.sndNxt] at hnew
      refine .inr ⟨q, hqueue, hsame.data.trans hdata, ?_, ?_⟩
      · rw [hsame.acked, hacked]
        exact h.fresh q hqueue
      · rw [hsame.sn]
        exact h.new_number (n := k₁.newCount ackOnly) (by omega)
          (by rw [length_take, Nat.min_eq_left (k₁.newCount_le_length ackOnly)]) hnew

/-! ## A call -/

theorem heard_adjusted (hk : Heard heads k k₁) (hk' : Adjusted k₁ k') : Heard heads k k' := by
  obtain ⟨_, _, _, _, _, rfl⟩ := hk'
  exact hk.then ⟨rfl, rfl, rfl, rfl, rfl, rfl, rfl, rfl⟩ rfl rfl rfl rfl
    (forall₂_same.mpr fun s _ => .refl _ s)

theorem Window.kept_ends (h : k.Window) (hk : Heard heads k k₁)
    {r : KCP × List Bytes} (hr : k₁.Ends byteCheck r) : Kept heads k r.1 := by
  rcases hr with rfl | ⟨ackOnly, hflushed, -⟩
  · exact kept_heard hk
  · exact h.kept_flushed hk hflushed

/-! ## Send -/

/-- The last segment of the queue takes a part of the buffer. -/
theorem extendLast_cases {buffer : Bytes} {r : Bytes × KCP} (h : k.extendLast buffer = .ok r) :
    r = (buffer, k) ∨ ∃ queue last n, k.sndQueue = queue ++ [last] ∧
      last.data.length + n ≤ k.mss.toNat ∧ r = (buffer.drop n, { k with
        sndQueue := queue ++ [{ last with data := last.data ++ buffer.take n }] }) := by
  unfold extendLast at h
  split at h
  · cases h
    exact .inl rfl
  rename_i last hlast
  split at h
  · have hle : (if buffer.length < k.mss.toNat - last.data.length then buffer.length
        else k.mss.toNat - last.data.length) ≤ k.mss.toNat - last.data.length := by
      split <;> omega
    dsimp only at h
    generalize (if buffer.length < k.mss.toNat - last.data.length then buffer.length
      else k.mss.toNat - last.data.length) = n at h hle
    split at h
    · cases h
    · cases h
      exact .inr ⟨_, last, n, (dropLast_append_getLast? last hlast).symm, by omega, rfl⟩
  · cases h
    exact .inl rfl

/-- The fragments of a buffer are queued, or the buffer is refused. -/
theorem sendFragments_cases {buffer : Bytes} {r : Int × KCP} (h : k.sendFragments buffer = .ok r) :
    (r = (-2, k) ∧ k.stream = 0 ∧ 255 < (buffer.length - 1) / k.mss.toNat + 1) ∨
      (r = (0, { k with
          sndQueue := k.sndQueue ++ fragments k.mss.toNat (k.stream ≠ 0)
            ((buffer.length - 1) / k.mss.toNat + 1) buffer }) ∧ k.mss.toNat ≠ 0 ∧
        ¬ (k.stream = 0 ∧ 255 < (buffer.length - 1) / k.mss.toNat + 1)) := by
  unfold sendFragments at h
  split at h
  · cases h
  rename_i hmss
  dsimp only at h
  split at h
  · rename_i hlarge
    cases h
    exact .inl ⟨rfl, hlarge⟩
  · rename_i hsmall
    cases h
    exact .inr ⟨rfl, hmss, hsmall⟩

section

variable {P : Segment → Prop}

theorem fragments_all (hnew : ∀ data frg, P { Segment.ofData data with frg := frg }) {mss : Nat}
    {stream : Bool} (count : Nat) (buffer : Bytes) : ∀ seg ∈ fragments mss stream count buffer,
      P seg := by
  induction count generalizing buffer with
  | zero => exact forall_mem_nil _
  | succ count ih =>
    intro seg hseg
    rcases mem_cons.mp hseg with rfl | hseg
    · exact hnew _ _
    · exact ih _ seg hseg

theorem sendFragments_all (hnew : ∀ data frg, P { Segment.ofData data with frg := frg })
    (hP : ∀ seg ∈ k.sndQueue, P seg) {buffer : Bytes} {r : Int × KCP}
      (h : k.sendFragments buffer = .ok r) :
    ∃ queue, r.2 = { k with sndQueue := queue } ∧ ∀ seg ∈ queue, P seg := by
  rcases sendFragments_cases h with ⟨rfl, -⟩ | ⟨rfl, -⟩
  · exact ⟨k.sndQueue, rfl, hP⟩
  · refine ⟨_, rfl, fun seg hseg => ?_⟩
    rcases mem_append.mp hseg with hold | hmem
    · exact hP seg hold
    · exact fragments_all hnew _ _ seg hmem

/-- `Send` changes the queue only; a property that does not depend on the data stays true of its
segments. -/
theorem send_all (hnew : ∀ data frg, P { Segment.ofData data with frg := frg })
    (hdata : ∀ seg data, P seg → P { seg with data := data }) (hP : ∀ seg ∈ k.sndQueue, P seg)
      {buffer : Bytes}
    {r : Int × KCP} (h : k.send buffer = .ok r) :
    ∃ queue, r.2 = { k with sndQueue := queue } ∧ ∀ seg ∈ queue, P seg := by
  unfold send at h
  split at h
  · cases h
    exact ⟨k.sndQueue, rfl, hP⟩
  split at h
  · cases hext : k.extendLast buffer with
    | error fault =>
      rw [hext] at h
      cases h
    | ok r₁ =>
      rw [hext] at h
      rcases extendLast_cases hext with rfl | ⟨queue, last, n, hqueue, -, rfl⟩
      · dsimp only at h
        split at h
        · cases h
          exact ⟨k.sndQueue, rfl, hP⟩
        · exact sendFragments_all hnew hP h
      · have hP' : ∀ seg ∈ queue ++ [{ last with data := last.data ++ buffer.take n }], P seg := by
          intro seg hseg
          rw [hqueue] at hP
          rcases mem_append.mp hseg with hold | hmem
          · exact hP seg (mem_append_left _ hold)
          · rw [mem_singleton.mp hmem]
            exact hdata last _ (hP last (mem_append_right _ (mem_singleton_self last)))
        dsimp only at h
        split at h
        · cases h
          exact ⟨_, rfl, hP'⟩
        · obtain ⟨queue', hqueue', hP''⟩ := sendFragments_all hnew hP' h
          exact ⟨queue', hqueue', hP''⟩
  · exact sendFragments_all hnew hP h

theorem step_send (hnew : ∀ data frg, P { Segment.ofData data with frg := frg })
    (hdata : ∀ seg data, P seg → P { seg with data := data }) (hP : ∀ seg ∈ k.sndQueue, P seg)
      {buffer : Bytes}
    {sent : List Bytes} (hstep : k.step byteCheck (.send buffer) = .ok (k', sent)) :
    ∃ queue, k' = { k with sndQueue := queue } ∧ ∀ seg ∈ queue, P seg := by
  rw [KCP.step] at hstep
  cases hsend : k.send buffer with
  | error fault =>
    rw [hsend] at hstep
    cases hstep
  | ok r =>
    rw [hsend] at hstep
    cases hstep
    exact send_all hnew hdata hP hsend

end

theorem step_send_eq {buffer : Bytes} {sent : List Bytes}
    (hstep : k.step byteCheck (.send buffer) = .ok (k', sent)) :
    ∃ queue, k' = { k with sndQueue := queue } := by
  obtain ⟨queue, heq, -⟩ := step_send (P := fun _ => True) (fun _ _ => trivial) (fun _ _ => id)
    (fun _ _ => trivial) hstep
  exact ⟨queue, heq⟩

theorem kept_same (heads : List Header) (hbuf : k'.sndBuf = k.sndBuf) : Kept heads k k' := by
  refine ⟨fun s hs hnot => absurd ?_ hnot, fun s' hs' => .inl ⟨s', hbuf ▸ hs', .refl heads s'⟩⟩
  rw [hbuf]
  exact mem_map_of_mem hs

/-- A call keeps the window, and the segments in it. -/
theorem Window.step (h : k.Window) {e : KcpEvent} (he : e ≠ .releaseTX) {sent : List Bytes}
    (hstep : KCP.step byteCheck k e = .ok (k', sent)) :
    k'.Window ∧ Kept (k.heads byteCheck e) k k' := by
  cases e with
  | send buffer =>
    obtain ⟨queue, rfl, hfresh⟩ :=
      step_send (fun _ _ => rfl) (fun _ _ hacked => hacked) h.fresh hstep
    exact ⟨{ h with fresh := hfresh }, kept_same _ rfl⟩
  | recv len =>
    obtain ⟨_, _, _, _, heq⟩ := k.recv_eq len
    rw [KCP.step, heq] at hstep
    cases hstep
    exact ⟨{ h with }, kept_same _ rfl⟩
  | input data regular ackNoDelay clock =>
    obtain ⟨k₁, hk₁, hends⟩ := step_input hstep
    have hheard := inputAll_heard regular (k.segments byteCheck data) ⟨k, 0, false, false⟩
    exact ⟨(h.afterLoop hk₁).ends hends, h.kept_ends (heard_adjusted hheard hk₁) hends⟩
  | flush ackOnly clock =>
    obtain ⟨hflushed, -⟩ := step_flush hstep
    exact ⟨h.flushed hflushed, h.kept_flushed (.refl k) hflushed⟩
  | setMtu | reserveBytes =>
    cases hstep
    dsimp only [setMtu, reserveBytes]
    split <;> exact ⟨{ h with }, kept_same _ rfl⟩
  | wndSize sndwnd rcvwnd =>
    obtain ⟨_, _, heq⟩ := k.wndSize_eq sndwnd rcvwnd
    rw [KCP.step, heq] at hstep
    cases hstep
    exact ⟨{ h with }, kept_same _ rfl⟩
  | noDelay nodelay interval resend nc =>
    obtain ⟨_, _, _, _, _, heq⟩ := k.noDelay_eq nodelay interval resend nc
    rw [KCP.step, heq] at hstep
    cases hstep
    exact ⟨{ h with }, kept_same _ rfl⟩
  | setStream stream =>
    cases hstep
    exact ⟨{ h with }, kept_same _ rfl⟩
  | releaseTX => exact absurd rfl he

end

/-! ## Runs -/

/-- In every run without a `ReleaseTX`, with whatever datagrams: before and after each call the send
buffer holds the numbers from `sndUna` to `sndNxt`, and a segment leaves it or loses its data only
for a received acknowledgement. -/
theorem send_window (conv : UInt64) (es : List KcpEvent) (h : ∀ e ∈ es, e ≠ .releaseTX) :
    EachRound (step byteCheck)
      (fun k e => k.Window ∧
        ∀ k' sent, step byteCheck k e = .ok (k', sent) →
          k'.Window ∧ Kept (k.heads byteCheck e) k k')
      (newKCP byteCheck conv) es := by
  refine (EachRound.of_forall h).of_invariant (newKCP_window conv) ?_ ?_
  · intro k e k' sent hk he hstep
    exact (hk.step he hstep).1
  · intro k e hk he
    exact ⟨hk, fun k' sent hstep => hk.step he hstep⟩

/-- A segment is sent, and an acknowledgement for it comes in. -/
theorem send_window_acknowledged :
    (∀ e ∈ [KcpEvent.noDelay 1 10 2 1, .send [1, 2, 3], .flush false fun _ => 0,
      .input ({ Segment.ofData [] with conv := 7, cmd := cmdAck, wnd := 32 }.wire none) true false
        fun _ => 0],
      e ≠ .releaseTX) ∧
    EachRound (step none)
      (fun k e => k.Window ∧ ∀ k' sent,
        step none k e = .ok (k', sent) → k'.Window ∧ Kept (k.heads none e) k k')
      (newKCP none 7) [.noDelay 1 10 2 1, .send [1, 2, 3], .flush false fun _ => 0,
        .input ({ Segment.ofData [] with conv := 7, cmd := cmdAck, wnd := 32 }.wire none) true false
          fun _ => 0] := by
  have hevents : ∀ e ∈ [KcpEvent.noDelay 1 10 2 1, .send [1, 2, 3], .flush false fun _ => 0,
      .input ({ Segment.ofData [] with conv := 7, cmd := cmdAck, wnd := 32 }.wire none) true false
        fun _ => 0],
      e ≠ .releaseTX := by
    simp
  exact ⟨hevents, send_window none 7 _ hevents⟩

end Halo.Kcp.KCP
