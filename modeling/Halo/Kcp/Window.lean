import Halo.Kcp.Flush

/-!
# The receive window that KCP advertises (`protocol/kcp/kcp.go`)

`WndSize` takes any positive window and stores it in 32 bits. A flush computes the free part of the
window once and sends it in a field of 16 bits, by cutting the upper bits off. A free part that is a
multiple of `65536` is sent as zero, which tells the peer to stop.

* `flush_advertises`: every segment that a flush sends has the value of `wndUnused`.
* `advertised_window_iff`: when that value is zero exactly if the queue is full.
-/

namespace Halo.Kcp

namespace KCP

/-- The datagrams of a call that may panic. -/
def datagramsOf {α : Type} (sent : α → List Bytes) : Except Panic α → List Bytes
  | .ok a => sent a
  | .error p => p.sent

/-- Every segment of every datagram has the free part of the window, as the flush computes it. -/
theorem flush_advertises (byteCheck : Option (Bytes → UInt32)) (k : KCP) (ackOnly : Bool)
    (clock : Nat → UInt32) :
    ∀ d ∈ datagramsOf (fun r => r.2.1) (k.flush byteCheck ackOnly clock),
      Whole byteCheck (fun seg => seg.wnd = k.wndUnused) (d.drop k.reserved) := by
  have hP : k.Writes (fun seg => seg.wnd = k.wndUnused) ackOnly :=
    ⟨fun _ _ hwnd _ _ => hwnd, fun _ _ _ _ _ hwnd => hwnd⟩
  have hflush : Outcome _ _ (k.flush byteCheck ackOnly clock) := flush_outcome_of hP clock
  intro d hd
  cases hrun : k.flush byteCheck ackOnly clock with
  | error p =>
    rw [hrun] at hflush hd
    exact (hflush.sent d hd).whole
  | ok r =>
    rw [hrun] at hflush hd
    exact (hflush.2 d hd).whole

theorem wndSize_rcvWnd (k : KCP) (sndwnd : Int) {rcvwnd : Int} (h : 0 < rcvwnd)
    (hlt : rcvwnd < 2 ^ 32) : ((k.wndSize sndwnd rcvwnd).rcvWnd.toNat : Int) = rcvwnd := by
  have hset : (k.wndSize sndwnd rcvwnd).rcvWnd = .ofInt rcvwnd := by
    rw [wndSize, if_pos h]
  rw [hset, UInt32.ofInt, UInt32.toNat_ofNat']
  omega

/-- The field of 16 bits is the free part of the window modulo `65536`. -/
theorem toNat_wndUnused (k : KCP) :
    k.wndUnused.toNat = (k.rcvWnd.toNat - k.rcvQueue.length) % 65536 := by
  rw [wndUnused]
  split
  · exact UInt16.toNat_ofNat'
  · rw [Nat.sub_eq_zero_of_le (by omega)]
    rfl

/-- A flush advertises the free part of the window, cut to 16 bits: it is zero only for a full
queue, and never too large, unless the free part is a multiple of `65536`. -/
theorem advertised_window_iff (byteCheck : Option (Bytes → UInt32)) (k : KCP) (sndwnd rcvwnd : Int)
    (hpos : 0 < rcvwnd) (hlt : rcvwnd < 2 ^ 32) (ackOnly : Bool) (clock : Nat → UInt32) :
    let k := k.wndSize sndwnd rcvwnd
    let len : Int := k.rcvQueue.length
    (∀ d ∈ datagramsOf (fun r => r.2.1) (k.flush byteCheck ackOnly clock),
      Whole byteCheck (fun seg => seg.wnd = k.wndUnused) (d.drop k.reserved)) ∧
    (((k.wndUnused ≠ 0 ↔ len < rcvwnd) ∧ (k.wndUnused.toNat : Int) ≤ max 0 (rcvwnd - len)) ↔
      ¬ (0 < rcvwnd - len ∧ 65536 ∣ rcvwnd - len)) := by
  intro k len
  refine ⟨flush_advertises byteCheck k ackOnly clock, ?_⟩
  have hwnd : (k.rcvWnd.toNat : Int) = rcvwnd := wndSize_rcvWnd _ sndwnd hpos hlt
  have hlen : len = k.rcvQueue.length := rfl
  have hunused := k.toNat_wndUnused
  rw [ne_eq, ← UInt16.toNat_inj, hunused, UInt16.toNat_zero]
  omega

/-- An instance with the receive window that has one segment to acknowledge. -/
def oneAck (rcvwnd : Int) : KCP :=
  { (newKCP none 1).wndSize 32 rcvwnd with acklist := [⟨0, 0⟩] }

/-- With a window of `65536` segments and an empty queue, the acknowledgement advertises the window
zero. -/
theorem large_window_advertises_zero :
    (oneAck 65536).rcvQueue = [] ∧ (oneAck 65536).rcvWnd = 65536 ∧
      (datagramsOf (fun r => r.2.1) ((oneAck 65536).flush none true fun _ => 0)).map
        (fun d => (decodeHeader none d).wnd) = [0] := by
  decide +kernel

theorem advertised_window_iff_default :
    let k := (oneAck 32).wndSize 32 32
    (datagramsOf (fun r => r.2.1) (k.flush none true fun _ => 0)).length = 1 ∧
      (∀ d ∈ datagramsOf (fun r => r.2.1) (k.flush none true fun _ => 0),
        Whole none (fun seg => seg.wnd = k.wndUnused) (d.drop k.reserved)) ∧ k.wndUnused ≠ 0 := by
  intro k
  obtain ⟨hsegs, hiff⟩ :=
    advertised_window_iff none (oneAck 32) 32 32 (by decide) (by decide) true fun _ => 0
  have hqueue : ((oneAck 32).wndSize 32 32).rcvQueue.length = 0 := by decide +kernel
  refine ⟨by decide +kernel, hsegs, (hiff.mpr ?_).1.mpr ?_⟩
  · rw [hqueue]
    decide
  · rw [hqueue]
    decide

end KCP

end Halo.Kcp
