import Halo.Tcp.Calls

/-!
# The send side of a connection over a run

The sequences of arrivals, ticks and calls from a new connection, with any segments. The stack does
not pass segments on to a connection that is closed.
-/

namespace Halo.Tcp.Conn

/-- What can happen to a connection. -/
inductive Event where
  | input (p : TcpPkt) (now : Int)
  | tick (now : Int)
  | read (n : Nat) (now : Int)
  | write (p : Bytes) (now : Int)
  | closeWrite (now : Int)
  | close (now : Int)
  | setDeadlines (rd wd : Option (Option Int))
  /-- The output has refused a segment. -/
  | unsent (out : Outbound)

/-- How a connection begins. -/
inductive Origin where
  | dial (localAddr remoteAddr : Addr) (iss : UInt32) (now : Int)
  | accept (localAddr remoteAddr : Addr) (iss : UInt32) (listener : Nat) (p : TcpPkt) (now : Int)

/-- The new connection. -/
def Origin.conn : Origin → Conn
  | .dial localAddr remoteAddr iss now => Conn.dial localAddr remoteAddr iss now
  | .accept localAddr remoteAddr iss listener p now =>
    Conn.accept localAddr remoteAddr iss listener p now

/-- The connection after an event, with the requests that it has made. -/
def handle (c : Conn) : Event → Except Fault Conn
  | .input p now => if c.state = .closed then .ok c else c.input p now
  | .tick now => c.tick now
  | .read n now => (c.read n now).map Prod.snd
  | .write p now => (c.write p now).map Prod.snd
  | .closeWrite now => (c.closeWrite now).map Prod.snd
  | .close now => (c.close now).map Prod.snd
  | .setDeadlines rd wd => .ok (c.setDeadlines rd wd).2
  | .unsent out => .ok (c.unsent out)

/-- One event; the stack takes the requests. -/
def step (c : Conn) (e : Event) : Except Fault (Conn × List Request) :=
  (c.handle e).map fun c => ({ c with requests := [] }, c.requests)

/-- A SYN or a FIN is sent and not acknowledged. -/
def Outstanding (c : Conn) : Prop := c.Opening ∨ (c.finSent = true ∧ c.sndUna = c.finSeq)

instance (c : Conn) : Decidable c.Outstanding :=
  inferInstanceAs (Decidable ((_ ∨ _) ∨ (_ ∧ _)))

/-- The numbers and the queue of the send side. -/
structure SendSide (c : Conn) : Prop where
  numbers : (c.sndNxt - c.sndUna).toNat = c.inflight + if c.Outstanding then 1 else 0
  inflight_le : c.inflight ≤ c.tx.size
  size_le : c.tx.size ≤ 16384
  fin : c.finSent = true → c.tx.size = 0 ∧ c.inflight = 0

variable {c c' : Conn}

theorem SendInv.settle (h : SendInv c) : SendInv { c with requests := [] } :=
  { h with }

theorem SendInv.origin (o : Origin) : SendInv o.conn := by
  cases o with
  | dial => exact .dial ..
  | accept => exact .accept ..

/-- Every event is handled, and the invariant is kept. -/
theorem SendInv.handle (h : SendInv c) (e : Event) : ∃ c', c.handle e = .ok c' ∧ SendInv c' := by
  have hmoves : (∃ c', c.handle e = .ok c' ∧ Moves (fun _ => True) (fun _ => True) c c') →
      ∃ c', c.handle e = .ok c' ∧ SendInv c' := by
    rintro ⟨c', hok, hmoves⟩
    exact ⟨c', hok, Moves.sendInv hmoves h⟩
  cases e with
  | input p now =>
    apply hmoves
    by_cases hclosed : c.state = .closed
    · exact ⟨c, if_pos hclosed, .refl⟩
    · obtain ⟨c', hok, hm⟩ := input_moves (A := fun _ => True) (p := p) trivial h hclosed now
      exact ⟨c', (if_neg hclosed).trans hok, hm⟩
  | tick now => exact hmoves (tick_moves h now)
  | read n now =>
    obtain ⟨reply, c', hok, ⟨data, rx, hread, -, hm⟩ | ⟨-, rfl, -⟩⟩ :=
      read_cases (A := fun _ => True) (H := fun _ => True) h n now
    · exact ⟨c', map_eq_ok.mpr ⟨_, hok, rfl⟩, Moves.sendInv hm (h.take hread)⟩
    · exact ⟨c', map_eq_ok.mpr ⟨_, hok, rfl⟩, h⟩
  | write p now =>
    obtain ⟨reply, c', hok, ⟨n, tx, hwrite, -, hstate, -, hm⟩ | ⟨-, rfl⟩⟩ :=
      write_cases (A := fun _ => True) (H := fun _ => True) h p now
    · exact ⟨c', map_eq_ok.mpr ⟨_, hok, rfl⟩, Moves.sendInv hm (h.put hstate hwrite)⟩
    · exact ⟨c', map_eq_ok.mpr ⟨_, hok, rfl⟩, h⟩
  | closeWrite now =>
    apply hmoves
    obtain ⟨err, c', hok, hm⟩ := closeWrite_moves h now
    exact ⟨c', map_eq_ok.mpr ⟨_, hok, rfl⟩, hm⟩
  | close now =>
    apply hmoves
    obtain ⟨err, c', hok, hm⟩ := close_moves h now
    exact ⟨c', map_eq_ok.mpr ⟨_, hok, rfl⟩, hm⟩
  | setDeadlines rd wd => exact hmoves ⟨_, rfl, setDeadlines_moves c rd wd⟩
  | unsent out => exact hmoves ⟨_, rfl, unsent_moves c trivial⟩

theorem SendInv.sendSide (h : SendInv c) (hlive : c.Live) : c.SendSide := by
  have hle := h.inflight_le hlive
  have hmss := h.inflight_le_mss hlive
  unfold mss at hmss
  have hsize : c.tx.size ≤ 16384 := by
    have hbound := c.tx.size_le
    rw [h.tx_length hlive] at hbound
    exact hbound
  -- the three phases of a live connection
  have hphase : c.Opening ∨ c.Sending ∨ c.Ended := by
    obtain ⟨hclosed, htime⟩ := hlive
    unfold Opening Sending Ended
    cases hs : c.state <;> simp_all
  rcases hphase with hstate | hstate | hstate
  · obtain ⟨hempty, hfin, hnum⟩ := h.opening hstate
    have hzero : c.inflight = 0 := by omega
    refine ⟨?_, hle, hsize, fun hsent => absurd (hfin.symm.trans hsent) (by decide)⟩
    rw [if_pos (.inl hstate), hnum, hzero, add_sub_cancel_left]
    rfl
  · obtain ⟨hfin, hnum⟩ := h.sending hstate
    have hnone : ¬ c.Outstanding := by
      rintro (hopen | ⟨hsent, -⟩)
      · exact hstate.not_opening hopen
      · exact absurd (hfin.symm.trans hsent) (by decide)
    refine ⟨?_, hle, hsize, fun hsent => absurd (hfin.symm.trans hsent) (by decide)⟩
    rw [if_neg hnone, hnum, add_sub_cancel_left,
      UInt32.toNat_ofNat_of_lt' (by unfold UInt32.size; omega), Nat.add_zero]
  · obtain ⟨hfin, hempty, hnum, huna⟩ := h.ended hstate
    have hzero := h.inflight_ended hstate
    refine ⟨?_, hle, hsize, fun _ => ⟨hempty, hzero⟩⟩
    rcases huna with huna | huna
    · rw [if_pos (.inr ⟨hfin, huna⟩), hnum, huna, hzero, add_sub_cancel_left]
      rfl
    · have hnone : ¬ c.Outstanding := by
        rintro (hopen | ⟨-, heq⟩)
        · exact hstate.not_opening hopen
        · rw [huna, add_eq_left] at heq
          exact absurd heq (by decide)
      rw [if_neg hnone, hnum, huna, hzero, sub_self]
      rfl

/-- The send side of a connection, in every state of a run from its beginning up to the last
acknowledgement. No event runs into a fault: no more bytes are discarded or sent than the send queue
has, and no remainder is by the length of an empty slice. -/
theorem send_side_over_runs (o : Origin) (es : List Event) :
    EachRound step (fun c e => (c.Live → c.SendSide) ∧ ∃ r, c.step e = .ok r) o.conn es := by
  have hall : EachRound step (fun _ _ => True) o.conn es := EachRound.of_forall fun _ _ => trivial
  refine hall.of_invariant (I := SendInv) (.origin o) ?_ ?_
  · intro c e c₁ out h _ hstep
    obtain ⟨c', hok, hinv⟩ := h.handle e
    obtain ⟨c'', hok', heq⟩ := map_eq_ok.mp hstep
    obtain rfl : c' = c'' := Except.ok.inj (hok.symm.trans hok')
    obtain ⟨rfl, -⟩ := Prod.mk.inj heq
    exact hinv.settle
  · intro c e h _
    obtain ⟨c', hok, -⟩ := h.handle e
    exact ⟨h.sendSide, _, map_eq_ok.mpr ⟨c', hok, rfl⟩⟩

end Halo.Tcp.Conn
