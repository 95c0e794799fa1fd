import Halo.Base.Table
import Halo.Tcp.Conn

/-!
# The ports of the TCP stack (`protocol/tcp/stack.go`, `protocol/tcp/listener.go`)

The maps of a stack, and the functions that change them. What a connection does reaches them only
through `Conn.fail`, which removes it and releases its port; it may fail at any time (`Event.fail`).
Of a connection in `conns` only is modelled whether its listener still has it, and of a listener its
address: it is closed when it leaves `listeners`. The order of a `Table` is the iteration order of
the Go map, which the event `reorder` lets change.

`Dial` is the part up to its SYN. If the handshake fails afterwards, so does the connection.

* `pickPort_spec`, `exists_round`: the search for a port goes once through the whole range.
* `Counts`: the reservations are those of the listeners and of the connections.
* `ephemeral_ports`: what holds in every state of a stack.
-/

namespace Halo.Tcp

/-- `maxConnections`. -/
def maxConnections : Nat := 1024

/-- `connKey`. -/
structure ConnKey where
  localAddr : Addr
  remoteAddr : Addr
  deriving DecidableEq

/-- `Stack`, without the output. -/
structure Stack where
  /-- The connections; `true` is that the listener has not handed it out yet. -/
  conns : Table ConnKey Bool
  listeners : Table Addr Unit
  ports : Table Addr Int
  nextPort : UInt16
  closed : Bool

/-- `unicast`. -/
def unicast (ip : Ipv4Addr) : Bool := ip.get 0 ≠ 0 && ip.get 0 < 224 && ip ≠ broadcastIpv4Addr

namespace Stack

/-- `NewStack`, with the first two bytes of the secret. -/
def new (secret : UInt16) : Stack := ⟨∅, ∅, ∅, 49152 + secret % 16384, false⟩

/-- `s.ports[a]`. -/
def portCount (s : Stack) (a : Addr) : Int := (s.ports.lookup a).getD 0

/-- `reserve`. -/
def reserve (s : Stack) (a : Addr) : Option Stack :=
  if s.portCount a ≠ 0 then none else some { s with ports := s.ports.insert a 1 }

/-- `release`. -/
def release (s : Stack) (a : Addr) : Stack :=
  if s.portCount a - 1 = 0 then { s with ports := s.ports.erase a }
  else { s with ports := s.ports.insert a (s.portCount a - 1) }

/-- The next value of `nextPort`. -/
def portAfter (port : UInt16) : UInt16 := if port + 1 < 49152 then 49152 else port + 1

/-- The loop of `Dial` and `Listen` over the ports, with the number of its rounds. -/
def pickPort (ip : Ipv4Addr) : Nat → Stack → Option Addr × Stack
  | 0, s => (none, s)
  | n + 1, s =>
    let candidate : Addr := ⟨ip, s.nextPort⟩
    let s := { s with nextPort := portAfter s.nextPort }
    match s.reserve candidate with
    | some s => (some candidate, s)
    | none => pickPort ip n s

/-- The local address of `Dial` and `Listen`: the one that is given, or one with a port of the
loop. -/
def claimPort (s : Stack) (a : Addr) : Except Err Addr × Stack :=
  if a.port ≠ 0 then
    match s.reserve a with
    | some s => (.ok a, s)
    | none => (.error (.text "tcp: local port is in use"), s)
  else
    match pickPort a.ip 16384 s with
    | (some a, s) => (.ok a, s)
    | (none, s) => (.error (.text "tcp: no available local port"), s)

/-- The end of `Dial` and `Listen`: behind their checks a port is claimed and its user is added. -/
def openAt (s : Stack) (check : Option Err) (a : Addr) (add : Addr → Stack → Stack) :
    Except Err Addr × Stack :=
  match check with
  | some e => (.error e, s)
  | none =>
    match s.claimPort a with
    | (.error e, s) => (.error e, s)
    | (.ok a, s) => (.ok a, add a s)

/-- The checks of `Dial`. -/
def dialCheck (s : Stack) (remote a : Addr) : Option Err :=
  if unicast remote.ip = false ∨ remote.port = 0 then some (.text "tcp: invalid remote address")
  else if unicast a.ip = false then some (.text "tcp: invalid local address")
  else if s.closed then some .errClosed
  else if maxConnections ≤ s.conns.keys.length then some (.text "tcp: connection limit reached")
  else none

/-- `Dial`, up to its SYN; the result is the local address of the connection. -/
def dial (s : Stack) (remote a : Addr) : Except Err Addr × Stack :=
  s.openAt (s.dialCheck remote a) a fun a s => { s with conns := s.conns.insert ⟨a, remote⟩ false }

/-- The checks of `Listen`. -/
def listenCheck (s : Stack) (a : Addr) : Option Err :=
  if unicast a.ip = false then some (.text "tcp: invalid local address")
  else if s.closed then some .errClosed
  else if maxConnections ≤ s.listeners.keys.length then some (.text "tcp: listener limit reached")
  else none

/-- `Listen`; the result is the address of the listener. -/
def listen (s : Stack) (a : Addr) : Except Err Addr × Stack :=
  s.openAt (s.listenCheck a) a fun a s => { s with listeners := s.listeners.insert a () }

/-- The part of `Input` that creates a connection, for a SYN without ACK, RST and FIN; `full` is
that the listener has no place for it. -/
def inputSyn (s : Stack) (key : ConnKey) (full : Bool) : Stack :=
  if s.closed ∨ key ∈ s.conns ∨ key.localAddr ∉ s.listeners ∨ maxConnections ≤ s.conns.keys.length ∨
    full then s
  else { s with
    ports := s.ports.insert key.localAddr (s.portCount key.localAddr + 1)
    conns := s.conns.insert key true }

/-- `Conn.fail` of a connection that is not closed. -/
def fail (s : Stack) (key : ConnKey) : Stack :=
  if key ∈ s.conns then release { s with conns := s.conns.erase key } key.localAddr else s

/-- `Accept` hands the connection out. -/
def accept (s : Stack) (key : ConnKey) : Stack :=
  if key ∈ s.conns then { s with conns := s.conns.insert key false } else s

/-- `Close` of the listener at an address. -/
def closeListener (s : Stack) (a : Addr) : Stack :=
  if a ∈ s.listeners then
    let own := s.conns.keys.filter fun key => key.localAddr = a ∧ s.conns.lookup key = some true
    (own.foldl fail { s with listeners := s.listeners.erase a }).release a
  else s

/-- `Close`. -/
def close (s : Stack) : Stack :=
  if s.closed then s
  else
    let s := s.conns.keys.foldl fail { s with closed := true }
    { s.listeners.keys.foldl release s with listeners := ∅ }

/-- What happens next. -/
inductive Event where
  | dial (remote a : Addr)
  | listen (a : Addr)
  | inputSyn (key : ConnKey) (full : Bool)
  | fail (key : ConnKey)
  | accept (key : ConnKey)
  | closeListener (a : Addr)
  | close
  | reorder (conns : Table ConnKey Bool) (listeners : Table Addr Unit)

/-- The stack after an event. A reordering into other maps does nothing. -/
def step (s : Stack) : Event → Stack
  | .dial remote a => (s.dial remote a).2
  | .listen a => (s.listen a).2
  | .inputSyn key full => s.inputSyn key full
  | .fail key => s.fail key
  | .accept key => s.accept key
  | .closeListener a => s.closeListener a
  | .close => s.close
  | .reorder conns listeners =>
    if conns.entries.Perm s.conns.entries ∧ listeners.entries.Perm s.listeners.entries then
      { s with conns := conns, listeners := listeners }
    else s

/-! ## The search -/

variable {port : UInt16} {add : Addr → Stack → Stack}

theorem toNat_portAfter (h : 49152 ≤ port) :
    (portAfter port).toNat = 49152 + (port.toNat - 49152 + 1) % 16384 := by
  have hlt := port.toNat_lt
  rw [UInt16.le_iff_toNat_le] at h
  have hnext : (port + 1).toNat = (port.toNat + 1) % 65536 := by simp [UInt16.toNat_add]
  unfold portAfter
  split
  all_goals
    rename_i hlow
    rw [UInt16.lt_iff_toNat_lt, hnext] at hlow
    simp only [UInt16.reduceToNat, hnext] at h hlow ⊢
    omega

/-- The port of the round `k`. -/
theorem toNat_portAfter_iterate (h : 49152 ≤ port) (k : Nat) :
    (portAfter^[k] port).toNat = 49152 + (port.toNat - 49152 + k) % 16384 := by
  have hle : 49152 ≤ port.toNat := UInt16.le_iff_toNat_le.mp h
  have hlt := port.toNat_lt
  induction k with
  | zero =>
    rw [Function.iterate_zero_apply]
    omega
  | succ k ih =>
    have hrange : 49152 ≤ portAfter^[k] port := by
      rw [UInt16.le_iff_toNat_le, ih]
      exact Nat.le_add_right _ _
    rw [Function.iterate_succ_apply', toNat_portAfter hrange, ih]
    omega

theorem le_portAfter_iterate (h : 49152 ≤ port) (k : Nat) : 49152 ≤ portAfter^[k] port := by
  rw [UInt16.le_iff_toNat_le, toNat_portAfter_iterate h]
  exact Nat.le_add_right _ _

/-- 16384 rounds go through all ports. -/
theorem exists_round (h : 49152 ≤ port) {target : UInt16} (ht : 49152 ≤ target) :
    ∃ k < 16384, portAfter^[k] port = target := by
  have hport := port.toNat_lt
  have htarget := target.toNat_lt
  refine ⟨(target.toNat + 16384 - port.toNat) % 16384, Nat.mod_lt _ (by decide), ?_⟩
  rw [← UInt16.toNat_inj, toNat_portAfter_iterate h]
  rw [UInt16.le_iff_toNat_le] at h ht
  simp only [UInt16.reduceToNat] at h ht
  omega

variable {s : Stack} {a : Addr}

theorem reserve_free (h : s.portCount a = 0) :
    s.reserve a = some { s with ports := s.ports.insert a 1 } :=
  if_neg (not_not.mpr h)

theorem reserve_taken (h : s.portCount a ≠ 0) : s.reserve a = none := if_pos h

/-- The loop takes the first port without a reservation, if one of its rounds has one. -/
theorem pickPort_spec (ip : Ipv4Addr) (n : Nat) (s : Stack) :
    (∃ k < n, s.portCount ⟨ip, portAfter^[k] s.nextPort⟩ = 0 ∧
      pickPort ip n s = (some ⟨ip, portAfter^[k] s.nextPort⟩, { s with
        nextPort := portAfter^[k + 1] s.nextPort
        ports := s.ports.insert ⟨ip, portAfter^[k] s.nextPort⟩ 1 })) ∨
    ((∀ k < n, s.portCount ⟨ip, portAfter^[k] s.nextPort⟩ ≠ 0) ∧
      pickPort ip n s = (none, { s with nextPort := portAfter^[n] s.nextPort })) := by
  induction n generalizing s with
  | zero => exact .inr ⟨fun _ hk => absurd hk (Nat.not_lt_zero _), rfl⟩
  | succ n ih =>
    -- the reservations are the same for the stack with the next cursor
    have hcount : portCount { s with nextPort := portAfter s.nextPort } = s.portCount := rfl
    rw [pickPort]
    by_cases hfree : s.portCount ⟨ip, s.nextPort⟩ = 0
    · rw [← hcount] at hfree
      rw [reserve_free hfree]
      exact .inl ⟨0, Nat.succ_pos n, hfree, rfl⟩
    · rw [← hcount] at hfree
      rw [reserve_taken hfree]
      rcases ih { s with nextPort := portAfter s.nextPort } with ⟨k, hk, hcount, heq⟩ | ⟨hall, heq⟩
      · exact .inl ⟨k + 1, Nat.succ_lt_succ hk, hcount, heq⟩
      · refine .inr ⟨fun k hk => ?_, heq⟩
        cases k with
        | zero => exact hfree
        | succ k => exact hall k (Nat.lt_of_succ_lt_succ hk)

/-- A port of the range without a reservation for the address. -/
def Free (s : Stack) (ip : Ipv4Addr) (port : UInt16) : Prop :=
  49152 ≤ port ∧ s.portCount ⟨ip, port⟩ = 0

/-- What `claimPort` gives: an address that had no reservation, or an error and nothing but another
cursor. -/
theorem claimPort_spec (hcursor : 49152 ≤ s.nextPort) :
    (∃ b next, s.claimPort a = (.ok b, { s with nextPort := next, ports := s.ports.insert b 1 }) ∧
      49152 ≤ next ∧ s.portCount b = 0 ∧ (a.port = 0 → b.ip = a.ip ∧ s.Free a.ip b.port)) ∨
    (∃ e next, s.claimPort a = (.error e, { s with nextPort := next }) ∧
      49152 ≤ next ∧ (a.port = 0 → ∀ port, ¬ s.Free a.ip port)) := by
  unfold claimPort
  by_cases hzero : a.port = 0
  · rw [if_neg (not_not.mpr hzero)]
    rcases pickPort_spec a.ip 16384 s with ⟨k, -, hcount, heq⟩ | ⟨hall, heq⟩
    · rw [heq]
      exact .inl ⟨_, _, rfl, le_portAfter_iterate hcursor _, hcount,
        fun _ => ⟨rfl, le_portAfter_iterate hcursor _, hcount⟩⟩
    · rw [heq]
      refine .inr ⟨_, _, rfl, le_portAfter_iterate hcursor _, ?_⟩
      rintro - port ⟨hrange, hcount⟩
      obtain ⟨k, hk, rfl⟩ := exists_round hcursor hrange
      exact hall k hk hcount
  · rw [if_pos hzero]
    by_cases hfree : s.portCount a = 0
    · rw [reserve_free hfree]
      exact .inl ⟨a, s.nextPort, rfl, hcursor, hfree, fun h => absurd h hzero⟩
    · rw [reserve_taken hfree]
      exact .inr ⟨_, s.nextPort, rfl, hcursor, fun h => absurd h hzero⟩

/-! ## The reservations -/

/-- The reservations of the listeners and of the connections. -/
def users (s : Stack) (a : Addr) : Int :=
  (if a ∈ s.listeners then 1 else 0) + (s.conns.keys.countP fun key => key.localAddr = a : Nat)

/-- The reservations are those of the listeners and of the connections, and some that are left. -/
def Counts (s : Stack) (left : Addr → Int) : Prop := ∀ a, s.portCount a = s.users a + left a

variable {left : Addr → Int} {key : ConnKey}

theorem portCount_insert (s : Stack) (a : Addr) (n : Int) (b : Addr) :
    portCount { s with ports := s.ports.insert a n } b = if b = a then n else s.portCount b := by
  rw [portCount, Table.lookup_insert_eq_ite]
  split <;> rfl

theorem portCount_release (s : Stack) (a b : Addr) :
    (s.release a).portCount b = s.portCount b - if b = a then 1 else 0 := by
  unfold release
  split
  · rename_i hlast
    rw [portCount, Table.lookup_erase_eq_ite]
    split
    · subst b
      exact hlast.symm
    · exact (sub_zero _).symm
  · rw [portCount_insert]
    split
    · subst b
      rfl
    · exact (sub_zero _).symm

theorem release_eq (s : Stack) (a : Addr) : ∃ ports, s.release a = { s with ports := ports } := by
  unfold release
  split <;> exact ⟨_, rfl⟩

theorem users_release (s : Stack) (a : Addr) : (s.release a).users = s.users := by
  obtain ⟨ports, heq⟩ := s.release_eq a
  rw [heq]
  rfl

/-- A connection more. -/
theorem users_insert (hnew : key ∉ s.conns) (pending : Bool) (a : Addr) :
    users { s with conns := s.conns.insert key pending } a =
      s.users a + if a = key.localAddr then 1 else 0 := by
  have hkeys : (s.conns.insert key pending).keys = key :: s.conns.keys := by
    rw [AList.keys_insert, List.erase_of_not_mem hnew]
  simp only [users, hkeys, List.countP_cons, decide_eq_true_eq, eq_comm (a := a)]
  split <;> simp [add_assoc]

/-- A connection less. -/
theorem users_erase (hmem : key ∈ s.conns) (a : Addr) :
    users { s with conns := s.conns.erase key } a =
      s.users a - if a = key.localAddr then 1 else 0 := by
  have hcount := (List.perm_cons_erase hmem).countP_eq fun key' => decide (key'.localAddr = a)
  simp only [users, AList.keys_erase]
  rw [hcount, List.countP_cons]
  simp only [decide_eq_true_eq, eq_comm (a := a)]
  split <;> push_cast <;> ring

theorem Counts.fail (h : s.Counts left) (key : ConnKey) : (s.fail key).Counts left := by
  unfold Stack.fail
  split
  · rename_i hmem
    intro a
    have hcount : portCount { s with conns := s.conns.erase key } a = s.portCount a := rfl
    rw [portCount_release, users_release, users_erase hmem, hcount, h a]
    ring
  · exact h

theorem Counts.foldl_fail (h : s.Counts left) (keys : List ConnKey) :
    (keys.foldl Stack.fail s).Counts left := by
  induction keys generalizing s with
  | nil => exact h
  | cons key keys ih => exact ih (h.fail key)

theorem foldl_fail_eq (keys : List ConnKey) (s : Stack) :
    ∃ conns ports, keys.foldl fail s = { s with conns := conns, ports := ports } := by
  induction keys generalizing s with
  | nil => exact ⟨_, _, rfl⟩
  | cons key keys ih =>
    have hfail : ∃ conns ports, s.fail key = { s with conns := conns, ports := ports } := by
      unfold fail
      split
      · obtain ⟨ports, heq⟩ := release_eq { s with conns := s.conns.erase key } key.localAddr
        exact ⟨_, _, heq⟩
      · exact ⟨_, _, rfl⟩
    obtain ⟨conns, ports, heq⟩ := hfail
    rw [List.foldl_cons, heq]
    exact ih _

/-- Every use of the addresses gives its reservation back. -/
theorem portCount_foldl_release (as : List Addr) (s : Stack) (a : Addr) :
    (as.foldl release s).portCount a = s.portCount a - (as.count a : Nat) := by
  induction as generalizing s with
  | nil => exact (sub_zero _).symm
  | cons b as ih =>
    rw [List.foldl_cons, ih, portCount_release, List.count_cons]
    simp only [beq_iff_eq, eq_comm (a := a)]
    split <;> push_cast <;> ring

theorem foldl_release_eq (as : List Addr) (s : Stack) :
    ∃ ports, as.foldl release s = { s with ports := ports } := by
  induction as generalizing s with
  | nil => exact ⟨_, rfl⟩
  | cons b as ih =>
    obtain ⟨ports, heq⟩ := s.release_eq b
    rw [List.foldl_cons, heq]
    exact ih _

/-- The cursor is in its range, and every reservation has its user. -/
structure Inv (s : Stack) : Prop where
  cursor : 49152 ≤ s.nextPort
  counts : s.Counts 0

/-- An address without a reservation has no user. -/
theorem Inv.unused (h : s.Inv) (hfree : s.portCount a = 0) :
    a ∉ s.listeners ∧ ∀ key ∈ s.conns, key.localAddr ≠ a := by
  have hcount := h.counts a
  rw [hfree, users, Pi.zero_apply] at hcount
  constructor
  · intro hmem
    rw [if_pos hmem] at hcount
    omega
  · have hzero : (s.conns.keys.countP fun key => decide (key.localAddr = a)) = 0 := by
      split at hcount <;> omega
    intro key hmem heq
    exact List.countP_eq_zero.mp hzero key hmem (decide_eq_true heq)

theorem Inv.new (secret : UInt16) : (Stack.new secret).Inv where
  cursor := by
    have hmod : (secret % 16384).toNat = secret.toNat % 16384 := UInt16.toNat_mod _ _
    rw [UInt16.le_iff_toNat_le, Stack.new, UInt16.toNat_add, hmod]
    simp only [UInt16.reduceToNat]
    omega
  counts a := rfl

/-- What `Dial` and `Listen` do: they claim an address that had no reservation and add its user, or
they fail and change nothing but the cursor. -/
theorem openAt_spec (h : s.Inv) (check : Option Err) (a : Addr) (add : Addr → Stack → Stack) :
    (∃ b next, s.openAt check a add =
      (.ok b, add b { s with nextPort := next, ports := s.ports.insert b 1 }) ∧
      49152 ≤ next ∧ s.portCount b = 0 ∧ (a.port = 0 → b.ip = a.ip ∧ s.Free a.ip b.port)) ∨
    (∃ e next, s.openAt check a add = (.error e, { s with nextPort := next }) ∧ 49152 ≤ next ∧
      (check = none → a.port = 0 → ∀ port, ¬ s.Free a.ip port)) := by
  cases check with
  | some e => exact .inr ⟨e, _, rfl, h.cursor, nofun⟩
  | none =>
    unfold openAt
    rcases claimPort_spec (a := a) h.cursor with
      ⟨b, next, heq, hspec⟩ | ⟨e, next, heq, hnext, hnone⟩
    · rw [heq]
      exact .inl ⟨b, next, rfl, hspec⟩
    · rw [heq]
      exact .inr ⟨e, next, rfl, hnext, fun _ => hnone⟩

/-- A user of a new reservation. -/
def Adds (add : Addr → Stack → Stack) (s : Stack) : Prop :=
  ∀ b next, s.portCount b = 0 → ∃ conns listeners,
    add b { s with nextPort := next, ports := s.ports.insert b 1 } =
      { s with
        nextPort := next, ports := s.ports.insert b 1, conns := conns, listeners := listeners } ∧
    ∀ a, users { s with conns := conns, listeners := listeners } a =
      s.users a + if a = b then 1 else 0

theorem Inv.openAt (h : s.Inv) (hadd : Adds add s) (check : Option Err) (a : Addr) :
    (s.openAt check a add).2.Inv := by
  rcases openAt_spec h check a add with ⟨b, next, heq, hnext, hfree, -⟩ | ⟨e, next, heq, hnext, -⟩
  · obtain ⟨conns, listeners, hafter, husers⟩ := hadd b next hfree
    rw [heq, hafter]
    refine ⟨hnext, fun x => ?_⟩
    have hcount := h.counts x
    show portCount { s with ports := s.ports.insert b 1 } x =
      users { s with conns := conns, listeners := listeners } x + 0
    rw [portCount_insert, husers]
    rw [Pi.zero_apply] at hcount
    split
    · subst x
      omega
    · omega
  · rw [heq]
    exact ⟨hnext, h.counts⟩

theorem Inv.adds_conn (h : s.Inv) (remote : Addr) :
    Adds (fun a s => { s with conns := s.conns.insert ⟨a, remote⟩ false }) s := by
  intro b next hfree
  have hnew : (⟨b, remote⟩ : ConnKey) ∉ s.conns := fun hmem => (h.unused hfree).2 _ hmem rfl
  exact ⟨_, _, rfl, users_insert hnew false⟩

theorem Inv.adds_listener (h : s.Inv) :
    Adds (fun a s => { s with listeners := s.listeners.insert a () }) s := by
  intro b next hfree
  have hnew := (h.unused hfree).1
  refine ⟨_, _, rfl, fun a => ?_⟩
  simp only [users, AList.mem_insert]
  by_cases ha : a = b
  · subst a
    simp only [true_or, if_true, if_neg hnew]
    ring
  · simp [ha]

theorem Inv.inputSyn (h : s.Inv) (key : ConnKey) (full : Bool) : (s.inputSyn key full).Inv := by
  unfold Stack.inputSyn
  split
  · exact h
  rename_i hnone
  refine ⟨h.cursor, fun x => ?_⟩
  have hcount := h.counts x
  show portCount { s with ports := s.ports.insert key.localAddr (s.portCount key.localAddr + 1) }
    x = users { s with conns := s.conns.insert key true } x + 0
  rw [portCount_insert, users_insert fun hmem => hnone (.inr (.inl hmem))]
  rw [Pi.zero_apply] at hcount
  split
  · subst x
    omega
  · omega

theorem Inv.fail (h : s.Inv) (key : ConnKey) : (s.fail key).Inv := by
  refine ⟨?_, h.counts.fail key⟩
  obtain ⟨conns, ports, heq⟩ := foldl_fail_eq [key] s
  rw [List.foldl_cons, List.foldl_nil] at heq
  rw [heq]
  exact h.cursor

theorem Inv.accept (h : s.Inv) (key : ConnKey) : (s.accept key).Inv := by
  unfold Stack.accept
  split
  · rename_i hmem
    refine ⟨h.cursor, fun a => (h.counts a).trans ?_⟩
    have hperm : s.conns.keys.Perm (s.conns.insert key false).keys := by
      rw [AList.keys_insert]
      exact List.perm_cons_erase hmem
    simp only [users, hperm.countP_eq]
  · exact h

theorem Inv.closeListener (h : s.Inv) (a : Addr) : (s.closeListener a).Inv := by
  unfold Stack.closeListener
  split
  swap
  · exact h
  rename_i hmem
  dsimp only
  -- the reservation of the listener is left until the end
  have hleft : Counts { s with listeners := s.listeners.erase a } fun b => if b = a then 1
      else 0 := by
    intro b
    refine (h.counts b).trans ?_
    simp only [users, AList.mem_erase, Pi.zero_apply]
    by_cases hb : b = a
    · subst b
      simp only [hmem, ne_eq, not_true_eq_false, false_and, if_true, if_false]
      ring
    · simp [hb]
  generalize List.filter _ _ = keys
  have hcounts := hleft.foldl_fail keys
  obtain ⟨conns, ports, heq⟩ := foldl_fail_eq keys { s with listeners := s.listeners.erase a }
  obtain ⟨ports', heq'⟩ :=
    release_eq (keys.foldl Stack.fail { s with listeners := s.listeners.erase a }) a
  refine ⟨?_, fun b => ?_⟩
  · rw [heq', heq]
    exact h.cursor
  · rw [portCount_release, users_release, hcounts b, Pi.zero_apply]
    ring

theorem Inv.close (h : s.Inv) : s.close.Inv := by
  unfold Stack.close
  split
  · exact h
  dsimp only
  have hcounts := Counts.foldl_fail (s := { s with closed := true }) h.counts s.conns.keys
  obtain ⟨conns, ports, heq⟩ := foldl_fail_eq s.conns.keys { s with closed := true }
  rw [heq] at hcounts ⊢
  obtain ⟨ports', heq'⟩ := foldl_release_eq s.listeners.keys
      { s with closed := true, conns := conns, ports := ports }
  have hcount := portCount_foldl_release s.listeners.keys
      { s with closed := true, conns := conns, ports := ports }
  rw [heq'] at hcount ⊢
  refine ⟨h.cursor, fun a => (hcount a).trans ?_⟩
  -- an address is at most once among the keys
  have hkeys : s.listeners.keys.count a = if a ∈ s.listeners then 1 else 0 := by
    by_cases hmem : a ∈ s.listeners
    · rw [if_pos hmem]
      exact List.count_eq_one_of_mem s.listeners.nodupKeys hmem
    · rw [if_neg hmem, List.count_eq_zero_of_not_mem hmem]
  rw [hcounts a, hkeys]
  simp only [users, Pi.zero_apply, AList.notMem_empty, if_false]
  split <;> push_cast <;> ring

theorem Inv.step (h : s.Inv) (e : Event) : (s.step e).Inv := by
  cases e with
  | dial remote a => exact h.openAt (h.adds_conn remote) _ a
  | listen a => exact h.openAt h.adds_listener _ a
  | inputSyn key full => exact h.inputSyn key full
  | fail key => exact h.fail key
  | accept key => exact h.accept key
  | closeListener a => exact h.closeListener a
  | close => exact h.close
  | reorder conns listeners =>
    unfold Stack.step
    dsimp only
    split
    · rename_i hperm
      refine ⟨h.cursor, fun a => (h.counts a).trans ?_⟩
      have hconns : conns.keys.Perm s.conns.keys := hperm.1.map Sigma.fst
      have hmem : a ∈ listeners ↔ a ∈ s.listeners := (hperm.2.map Sigma.fst).mem_iff
      simp only [users, hconns.countP_eq, hmem]
    · exact h

/-! ## The choice of a port -/

/-- What a call with the port 0 gives. -/
structure GetsPort (s : Stack) (ip : Ipv4Addr) (res : Except Err Addr × Stack) : Prop where
  /-- It gets a port if and only if there is one without a reservation. -/
  obtains : (∃ a, res.1 = .ok a) ↔ ∃ port, s.Free ip port
  /-- The port had no reservation, and it is the only one that gets one. -/
  fresh : ∀ a, res.1 = .ok a → a.ip = ip ∧ s.Free ip a.port ∧
    ∀ b, res.2.portCount b = if b = a then 1 else s.portCount b

/-- The choice of ports in a state. -/
structure PortsOk (s : Stack) : Prop where
  cursor : 49152 ≤ s.nextPort
  /-- The reservations are those of the listeners and of the connections that have not failed. -/
  counted : ∀ a, s.portCount a = s.users a
  dial : ∀ remote ip, s.dialCheck remote ⟨ip, 0⟩ = none → s.GetsPort ip (s.dial remote ⟨ip, 0⟩)
  listen : ∀ ip, s.listenCheck ⟨ip, 0⟩ = none → s.GetsPort ip (s.listen ⟨ip, 0⟩)
  /-- A call that fails changes no reservation. -/
  dial_fails : ∀ remote a e, (s.dial remote a).1 = .error e → (s.dial remote a).2.ports = s.ports
  listen_fails : ∀ a e, (s.listen a).1 = .error e → (s.listen a).2.ports = s.ports
  /-- Neither does a `Dial` whose connection fails. -/
  handshake_fails : ∀ remote a b, (s.dial remote a).1 = .ok b →
    ∀ x, ((s.dial remote a).2.fail ⟨b, remote⟩).portCount x = s.portCount x

theorem Inv.getsPort (h : s.Inv) (hadd : Adds add s) (ip : Ipv4Addr) :
    s.GetsPort ip (s.openAt none ⟨ip, 0⟩ add) := by
  rcases openAt_spec h none ⟨ip, 0⟩ add with ⟨b, next, heq, -, hzero, hb⟩ | ⟨e, next, heq, -, hnone⟩
  · obtain ⟨hip, hfree⟩ := hb rfl
    obtain ⟨conns, listeners, hafter, -⟩ := hadd b next hzero
    rw [heq, hafter]
    refine ⟨iff_of_true ⟨b, rfl⟩ ⟨_, hfree⟩, fun a ha => ?_⟩
    cases ha
    exact ⟨hip, hfree, portCount_insert s b 1⟩
  · rw [heq]
    exact ⟨iff_of_false (fun ⟨a, ha⟩ => nomatch ha) fun ⟨port, hfree⟩ => hnone rfl rfl port hfree,
      fun a ha => nomatch ha⟩

theorem Inv.openAt_fails (h : s.Inv) {check : Option Err} {e : Err}
    (he : (s.openAt check a add).1 = .error e) : (s.openAt check a add).2.ports = s.ports := by
  rcases openAt_spec h check a add with ⟨b, next, heq, -⟩ | ⟨e', next, heq, -⟩
  · rw [heq] at he
    cases he
  · rw [heq]

theorem Inv.handshake_fails (h : s.Inv) {remote b : Addr} (hb : (s.dial remote a).1 = .ok b)
    (x : Addr) : ((s.dial remote a).2.fail ⟨b, remote⟩).portCount x = s.portCount x := by
  unfold dial at hb ⊢
  rcases openAt_spec h (s.dialCheck remote a) a _ with
    ⟨c, next, heq, -, hfree, -⟩ | ⟨e, next, heq, -⟩
  · rw [heq] at hb ⊢
    cases hb
    unfold Stack.fail
    rw [if_pos ((AList.mem_insert _).mpr (.inl rfl)), portCount_release]
    refine (congrArg (· - _) (portCount_insert s b 1 x)).trans ?_
    dsimp only
    split
    · subst x
      rw [hfree, sub_self]
    · exact sub_zero _
  · rw [heq] at hb
    cases hb

theorem Inv.portsOk (h : s.Inv) : s.PortsOk where
  cursor := h.cursor
  counted a := (h.counts a).trans (add_zero _)
  dial remote ip hcheck := by
    rw [Stack.dial, hcheck]
    exact h.getsPort (h.adds_conn remote) ip
  listen ip hcheck := by
    rw [Stack.listen, hcheck]
    exact h.getsPort h.adds_listener ip
  dial_fails _ _ _ := h.openAt_fails
  listen_fails _ _ := h.openAt_fails
  handshake_fails _ _ _ := h.handshake_fails

/-- In every state that a stack reaches: the cursor is in the range of the ephemeral ports, `Dial`
and `Listen` with the port 0 get a port if and only if one has no reservation for the address, and a
call that fails changes no reservation. -/
theorem ephemeral_ports (secret : UInt16) (es : List Event) :
    (es.foldl step (new secret)).PortsOk := by
  have hrun : ∀ s : Stack, s.Inv → (es.foldl step s).Inv := by
    induction es with
    | nil => exact fun _ h => h
    | cons e es ih => exact fun s h => ih _ (h.step e)
  exact (hrun _ (.new secret)).portsOk

end Stack

end Halo.Tcp
