import SecondGear.Proofs.LoopObjects
import SecondGear.Proofs.NameReuse

/-!
# `SecondGear.Proofs.ConnectionNames`: when two open connections get one name

The names depend on little: the counters of the servers, and who was accepted when. `Names`
is this part of the loop, and `Names.Step` says what can happen to it. Every step of the loop is
one of these (`step_names`), so `Names.Numbered` holds in every run: the `n`-th connection of a
server has the number `n + 1` modulo `2 ^ 32` in its name. And what a map has under a name is a
connection that got this name (`Entered`).

Decimal numbers differ when the numbers do. So a name in use comes back exactly when the
server accepted a multiple of `2 ^ 32` connections since (`NoneRound`).

* `connection_names_unique_iff`: the names are unique in exactly the runs without such a step, and
  there the maps hold the open connections.
* `not_connection_names_unique`: one connection stays open, and the counter goes round.

## What holds in every run

`Names.Numbered` and `Entered` hold in every run of the loop, also in one in which a name was given
again: neither says that the map holds who is open. So the equivalence of the two conditions on a
step (`freshName_iff`) needs no invariant of the loop, and it can be said of all runs. The invariant
comes in with the second part, about the maps.
-/

set_option autoImplicit false

namespace SecondGear

open SecondGear.Lib

/-! ### Servers and numbers -/

/-- What the names depend on: the name and the counter of each server, and the server and the
name of each connection, in the order in which they were made. -/
structure Names where
  numbers : List (String × Int)
  places : List (Nat × String)

namespace Names

variable {n n' : Names} {i : Nat}

/-- The name with the number `v`. -/
def name (server : String) (v : Int) : String := server ++ ("#" ++ toString v)

/-- The number of a server's connection, when there were `m` before it. -/
def number (m : Nat) : Int := ((m : Int) + 1).bmod (2 ^ 32)

/-- How many connections the server has accepted. -/
def accepts (n : Names) (i : Nat) : Nat := n.places.countP (·.1 = i)

/-- How many connections the server had accepted before the connection `id`. -/
def acceptsBefore (n : Names) (i id : Nat) : Nat := (n.places.take id).countP (·.1 = i)

/-- What a step of the loop does to the names: nothing, a server that starts at one, or a connection
under the next name of its server, whose counter moves on. -/
inductive Step (n : Names) : Names → Prop
  | same : Step n n
  | startServer (server : String) :
      Step n { n with numbers := n.numbers ++ [(server, 1)] }
  | newConnection (i : Nat) (server : String) (v : Int) :
      n.numbers[i]? = some (server, v) →
      Step n {
        numbers := n.numbers.set i (server, (v + 1).bmod (2 ^ 32))
        places := n.places ++ [(i, name server v)] }

/-- Most steps. -/
theorem Step.of_eq (h : n' = n) : Step n n' := by
  rw [h]
  exact .same

/-- The counters and the names are in step with the accepts: a counter is the number of the next
connection, and the number in a name is that of the accept that gave it. -/
structure Numbered (n : Names) : Prop where
  next : ∀ (i : Nat) server v, n.numbers[i]? = some (server, v) → v = number (n.accepts i)
  name : ∀ (id i : Nat) connName, n.places[id]? = some (i, connName) →
    ∃ server v, n.numbers[i]? = some (server, v) ∧
      connName = name server (number (n.acceptsBefore i id))

/-- One more connection has the next number. -/
theorem number_succ (m : Nat) : (number m + 1).bmod (2 ^ 32) = number (m + 1) := by
  have hcast : (m : Int) + 1 + 1 = ((m + 1 : Nat) : Int) + 1 := by omega
  exact (EventLoop.next_bmod _).trans (congrArg (fun x : Int => x.bmod (2 ^ 32)) hcast)

/-- Two connections of a server have one name exactly when their distance is a multiple of
`2 ^ 32`. From names to numbers by the decimal digits, and from numbers to accepts modulo the
period. -/
theorem name_number_inj {server : String} {m k : Nat} (hle : m ≤ k) :
    name server (number k) = name server (number m) ↔ 2 ^ 32 ∣ k - m := by
  have hbmod : ∀ (x y : Int) (p : Nat), x.bmod p = y.bmod p ↔ (p : Int) ∣ x - y := by
    intro x y p
    rw [Int.bmod_eq_bmod_iff_bmod_sub_eq_zero, ← Int.dvd_iff_bmod_eq_zero]
  have hdiff : (k : Int) + 1 - ((m : Int) + 1) = ((k - m : Nat) : Int) := by omega
  have hnumber : number k = number m ↔ 2 ^ 32 ∣ k - m := by
    refine (hbmod _ _ _).trans ?_
    rw [hdiff]
    exact Int.natCast_dvd_natCast
  rw [← hnumber]
  constructor
  · intro heq
    rw [name, name, String.append_right_inj, String.append_right_inj] at heq
    exact toString_int_injective heq
  · intro heq
    rw [heq]

/-- A server of a connection is there. -/
theorem Numbered.lt (h : n.Numbered) {x : Nat × String} (hx : x ∈ n.places) :
    x.1 < n.numbers.length := by
  obtain ⟨id, hid⟩ := List.getElem?_of_mem hx
  obtain ⟨server, v, hi, -⟩ := h.name id x.1 x.2 hid
  exact (List.getElem?_eq_some_iff.mp hi).1

/-- A connection behind `id` is none before it. -/
theorem acceptsBefore_concat {id : Nat} (hid : id ≤ n.places.length) (x : Nat × String)
    (numbers : List (String × Int)) (i : Nat) :
    acceptsBefore { numbers, places := n.places ++ [x] } i id = n.acceptsBefore i id := by
  show ((n.places ++ [x]).take id).countP _ = _
  rw [List.take_append_of_le_length hid]
  rfl

/-- Before the next connection come all. -/
theorem acceptsBefore_length (n : Names) (i : Nat) :
    n.acceptsBefore i n.places.length = n.accepts i := by
  rw [acceptsBefore, List.take_length]
  rfl

/-- Before any connection come at most all. -/
theorem acceptsBefore_le (n : Names) (i id : Nat) : n.acceptsBefore i id ≤ n.accepts i :=
  List.Sublist.countP_le (List.take_sublist _ _)

/-- A new server has accepted nothing. -/
theorem Numbered.startServer (h : n.Numbered) (server : String) :
    Numbered { n with numbers := n.numbers ++ [(server, 1)] } where
  next i server' v hi := by
    rcases EventLoop.getElem?_concat_cases hi with hold | ⟨rfl, hnew⟩
    · exact h.next i server' v hold
    · have hnone : n.accepts n.numbers.length = 0 := by
        refine List.countP_eq_zero.mpr fun x hx => ?_
        have hlt := h.lt hx
        simp only [decide_eq_true_eq]
        omega
      show v = number (n.accepts n.numbers.length)
      rw [hnone, (Prod.mk.inj hnew).2]
      decide
  name id i connName hid := by
    obtain ⟨server', v, hi, hname⟩ := h.name id i connName hid
    exact ⟨server', v, (List.getElem?_append_left (List.getElem?_eq_some_iff.mp hi).1).trans hi,
      hname⟩

/-- The next connection gets the next number. The old ones keep theirs: the connections before an
old one are the same, and no server gets another name. -/
theorem Numbered.newConnection (h : n.Numbered) {server : String} {v : Int}
    (hi : n.numbers[i]? = some (server, v)) :
    Numbered {
      numbers := n.numbers.set i (server, (v + 1).bmod (2 ^ 32))
      places := n.places ++ [(i, Names.name server v)] } where
  next j server' w hj := by
    rw [List.getElem?_set] at hj
    show w = number ((n.places ++ [(i, Names.name server v)]).countP (·.1 = j))
    rw [List.countP_append]
    split at hj
    · rename_i hij
      subst hij
      split at hj
      · -- The counter of this server is one further.
        rw [← (Prod.mk.inj (Option.some.inj hj)).2, h.next i server v hi, number_succ]
        simp [accepts]
      · cases hj
    · rename_i hij
      rw [h.next j server' w hj]
      simp [accepts, hij]
  name id j connName hid := by
    have hkept : ∀ (j : Nat) server' w, n.numbers[j]? = some (server', w) →
        ∃ w', (n.numbers.set i (server, (v + 1).bmod (2 ^ 32)))[j]? = some (server', w') := by
      intro j server' w hj
      rw [List.getElem?_set]
      split
      · rename_i hij
        subst hij
        rw [hi, Option.some.injEq, Prod.mk.injEq] at hj
        rw [if_pos (List.getElem?_eq_some_iff.mp hi).1, hj.1]
        exact ⟨_, rfl⟩
      · exact ⟨w, hj⟩
    rcases EventLoop.getElem?_concat_cases hid with hold | ⟨rfl, hnew⟩
    · obtain ⟨server', w, hj, hname⟩ := h.name id j connName hold
      obtain ⟨w', hw'⟩ := hkept j server' w hj
      have hle := (List.getElem?_eq_some_iff.mp hold).1
      exact ⟨server', w', hw', by rw [acceptsBefore_concat (Nat.le_of_lt hle)]; exact hname⟩
    · obtain ⟨rfl, rfl⟩ := Prod.mk.inj hnew
      obtain ⟨w', hw'⟩ := hkept j server v hi
      refine ⟨server, w', hw', ?_⟩
      rw [acceptsBefore_concat (Nat.le_refl _), acceptsBefore_length, h.next j server v hi]

/-- Every step keeps counters and names in step. -/
theorem Numbered.step (h : n.Numbered) (hstep : n.Step n') : n'.Numbered := by
  cases hstep with
  | same => exact h
  | startServer server => exact h.startServer server
  | newConnection i server v hi => exact h.newConnection hi

end Names

namespace EventLoop

variable {s s' : EventLoop}

/-- The names of a loop. -/
def names (s : EventLoop) : Names where
  numbers := s.servers.map fun server => (server.name, server.nextConnId)
  places := s.conns.map fun k => (k.server, k.name)

/-! ### What a step does to the names -/

/-- As long as the objects stay, the names do. -/
theorem Same.names_eq (h : Same s s') : s'.names = s.names := by
  rw [names, names, h.map_place]
  exact congrArg (Names.mk · _) (h.map_servers fun x => (x.1, x.2.2))

/-- One thing that happens, in front of the destructors. The maps are forgotten here. -/
theorem Change.names_step {a : LoopAction} (h : Change s s' a) : s.names.Step s'.names := by
  cases h with
  | same _ _ hsame => exact .of_eq hsame.names_eq
  | newConnection connfd _ _ i server k hserver _ hi hname _ _ _ hservers hconns =>
      have hnumber : s.names.numbers[i]? = some (server.name, server.nextConnId) := by
        rw [names, List.getElem?_map, hserver]
        rfl
      have hstep := Names.Step.newConnection i _ _ hnumber
      show s.names.Step ⟨s'.servers.map _, s'.conns.map _⟩
      rw [hservers, hconns, List.map_set, List.map_append, List.map_singleton, hi, hname]
      exact hstep
  | startServer name acceptSocket _ _ _ hservers hconns =>
      show s.names.Step ⟨s'.servers.map _, s'.conns.map _⟩
      rw [hservers, hconns, List.map_append]
      exact .startServer name

/-- The loop refines `Names.Step`, whatever the run did before. -/
theorem step_names {a : LoopAction} (h : s.step a = some s') : s.names.Step s'.names := by
  obtain ⟨t, hbody, rfl⟩ := Option.map_eq_some_iff.mp h
  rw [(release_same t).names_eq]
  exact (stepBody_change hbody).names_step

/-- A new loop has no servers. -/
theorem new_numbered {timerfd wakeupFd : Int} (hnew : new timerfd wakeupFd = some s) :
    s.names.Numbered := by
  obtain ⟨p₁, -, hnew⟩ := bind_eq_some_iff.mp hnew
  obtain ⟨p, -, hnew⟩ := bind_eq_some_iff.mp hnew
  cases hnew
  exact ⟨by simp [names], by simp [names]⟩

/-- By induction on the run, for every run. -/
theorem numbered_of_run {s₀ : EventLoop} {as : List LoopAction} (h : s₀.names.Numbered)
    (hrun : loopMachine.Run s₀ as s) : s.names.Numbered :=
  hrun.invariant (I := fun s => s.names.Numbered) h fun _ _ _ ht _ hstep =>
    ht.step (step_names hstep)

/-! ### What the maps hold -/

/-- What the map of a server has under a name is a connection that this server gave the name. It may
have closed long ago, as far as this says. -/
def Entered (s : EventLoop) : Prop :=
  ∀ (i : Nat) server name id, s.servers[i]? = some server →
    server.connections.lookup name = some id → s.placeOf id = some (i, name)

/-- An entry is made together with its connection, and otherwise entries are only erased.
Overwriting one is no exception: the new entry is of the new connection. -/
theorem Change.entered {a : LoopAction} (h : Change s s' a) (hs : s.Entered) : s'.Entered := by
  intro i server' name id hi hid
  cases h with
  | same _ _ hsame =>
      obtain ⟨server, hserver, hsub⟩ := hsame.maps i server' hi
      rw [placeOf_of_map hsame.map_place]
      have hmem := hsub (AList.mem_lookup_iff.mp hid)
      exact hs i server name id hserver (AList.mem_lookup_iff.mpr hmem)
  | newConnection connfd _ _ j server k hserver _ hj hname _ _ _ hservers hconns =>
      rw [placeOf_concat hconns, hj, hname]
      -- An old entry is one of an old connection.
      have hold : ∀ old, s.servers[i]? = some old → old.connections.lookup name = some id →
          (if id = s.conns.length then some (j, server.connName) else s.placeOf id)
            = some (i, name) := by
        intro old hi hid
        have hplace := hs i old name id hi hid
        have hne : id ≠ s.conns.length := by
          rintro rfl
          rw [placeOf, List.getElem?_eq_none (Nat.le_refl _)] at hplace
          cases hplace
        rw [if_neg hne]
        exact hplace
      rw [hservers, List.getElem?_set] at hi
      by_cases hij : j = i
      · rw [if_pos hij, if_pos (List.getElem?_eq_some_iff.mp hserver).1, Option.some.injEq] at hi
        rw [← hi] at hid
        by_cases hconn : name = server.connName
        · rw [hconn, AList.lookup_insert, Option.some.injEq] at hid
          rw [if_pos hid.symm, hij, hconn]
        · rw [AList.lookup_insert_ne hconn] at hid
          exact hold server (hij ▸ hserver) hid
      · rw [if_neg hij] at hi
        exact hold server' hi hid
  | startServer server acceptSocket _ _ _ hservers hconns =>
      rw [hservers] at hi
      have hplace : s'.placeOf id = s.placeOf id := by rw [placeOf, placeOf, hconns]
      rw [hplace]
      rcases getElem?_concat_cases hi with hold | ⟨-, rfl⟩
      · exact hs i server' name id hold hid
      · simp [TcpServer.new] at hid

/-- So it holds in every run. -/
theorem entered_of_run {s₀ : EventLoop} {as : List LoopAction} (h : s₀.Entered)
    (hrun : loopMachine.Run s₀ as s) : s.Entered := by
  refine hrun.invariant (I := Entered) h fun t a t' ht _ hstep => ?_
  obtain ⟨u, hbody, rfl⟩ := Option.map_eq_some_iff.mp hstep
  have hrelease : Change u u.release .queueInLoop := .same _ rfl (release_same u)
  exact hrelease.entered ((stepBody_change hbody).entered ht)

/-- A new loop has no maps. -/
theorem new_entered {timerfd wakeupFd : Int} (hnew : new timerfd wakeupFd = some s) :
    s.Entered := by
  obtain ⟨p₁, -, hnew⟩ := bind_eq_some_iff.mp hnew
  obtain ⟨p, -, hnew⟩ := bind_eq_some_iff.mp hnew
  cases hnew
  intro i server name id hi
  cases hi

/-! ### Names in use -/

/-- How many connections the server accepted before the connection `id`. -/
def acceptsBefore (s : EventLoop) (i : Nat) (id : TcpConnectionPtr) : Nat :=
  (s.conns.take id).countP (·.server = i)

/-- The server of the acceptor whose callback is next. -/
def acceptingIndex (s : EventLoop) : Option Nat :=
  match s.pc.current.head? with
  | some (c, _) =>
      match s.owners[c]? with
      | some (.acceptor i) => some i
      | _ => none
  | none => none

/-- A server that accepts a connection has in its map none that it accepted a multiple of
`2 ^ 32` connections ago. -/
def NoneRound (s : EventLoop) : LoopAction → Prop
  | .runHandler connfd _ _ =>
      0 ≤ connfd → ∀ i ∈ s.acceptingIndex, ∀ server ∈ s.servers[i]?,
        ∀ e ∈ server.connections.entries, ¬ 2 ^ 32 ∣ s.accepts i - s.acceptsBefore i e.2
  | _ => True

instance (s : EventLoop) : (a : LoopAction) → Decidable (NoneRound s a)
  | .runHandler _ _ _ => inferInstanceAs (Decidable (_ → ∀ i ∈ _, _))
  | .poll _ _ | .handleEvent | .doPendingFunctors | .runFunctor | .endFunctors
  | .callbackReturns | .send _ _ _ | .shutdown _ | .input _ _ | .addRef _ | .dropRef _
  | .queueInLoop | .startServer _ _ => isTrue trivial

/-- The server that is about to accept, by its number. -/
theorem acceptingServer_eq (s : EventLoop) :
    s.acceptingServer = s.acceptingIndex.bind fun i => s.servers[i]? := by
  rw [acceptingServer, acceptingIndex]
  cases s.pc.current.head? with
  | none => rfl
  | some x =>
      dsimp only
      cases s.owners[x.1]? with
      | none => rfl
      | some owner => cases owner <;> rfl

/-- The accepts are seen in the names. -/
theorem names_accepts (s : EventLoop) (i : Nat) : s.names.accepts i = s.accepts i :=
  List.countP_map ..

/-- And so are those before a connection. -/
theorem names_acceptsBefore (s : EventLoop) (i id : Nat) :
    s.names.acceptsBefore i id = s.acceptsBefore i id := by
  rw [Names.acceptsBefore, names, ← List.map_take]
  exact List.countP_map ..

/-- The next name is in use exactly when its number comes round to a connection in the map. An entry
under the next name is one of a connection with that name, whose number then is the next one modulo
`2 ^ 32`; and a connection in the map whose number is that stands under the next name. -/
theorem connName_mem_iff (h : s.Entered) (hnames : s.names.Numbered) {i : Nat}
    {server : TcpServer} (hi : s.servers[i]? = some server) :
    server.connName ∈ server.connections ↔
      ∃ e ∈ server.connections.entries, 2 ^ 32 ∣ s.accepts i - s.acceptsBefore i e.2 := by
  have hnumber : s.names.numbers[i]? = some (server.name, server.nextConnId) := by
    rw [names, List.getElem?_map, hi]
    rfl
  have hnext : server.connName = Names.name server.name (Names.number (s.accepts i)) := by
    rw [← names_accepts, ← hnames.next i _ _ hnumber]
    rfl
  -- What the map has under a name is a connection of that name.
  have hentry : ∀ name id, server.connections.lookup name = some id →
      name = Names.name server.name (Names.number (s.acceptsBefore i id)) := by
    intro name id hid
    have hplace := h i server name id hi hid
    rw [placeOf, ← List.getElem?_map] at hplace
    obtain ⟨server', v, hserver', hname⟩ := hnames.name id i name hplace
    rw [hnumber, Option.some.injEq, Prod.mk.injEq] at hserver'
    rw [hname, ← hserver'.1, names_acceptsBefore]
  have hle : ∀ id, s.acceptsBefore i id ≤ s.accepts i := by
    intro id
    rw [← names_acceptsBefore, ← names_accepts]
    exact Names.acceptsBefore_le _ _ _
  constructor
  · intro hmem
    obtain ⟨id, hid⟩ := Option.isSome_iff_exists.mp (AList.lookup_isSome.mpr hmem)
    refine ⟨⟨server.connName, id⟩, AList.mem_lookup_iff.mp hid, ?_⟩
    exact (Names.name_number_inj (hle id)).mp (hnext.symm.trans (hentry _ id hid))
  · rintro ⟨e, he, hround⟩
    have hid : server.connections.lookup e.1 = some e.2 := AList.mem_lookup_iff.mpr he
    have hname := hentry e.1 e.2 hid
    rw [← (Names.name_number_inj (hle e.2)).mpr hround, ← hnext] at hname
    rw [← hname]
    exact AList.lookup_isSome.mp (by rw [hid]; rfl)

/-- A step takes a free name exactly when no number comes round. The one condition looks at the keys
of the map, and the other at how long ago its values were accepted. -/
theorem freshName_iff (h : s.Entered) (hnames : s.names.Numbered) (a : LoopAction) :
    FreshName s a ↔ NoneRound s a := by
  cases a with
  | runHandler connfd readv write =>
      show (0 ≤ connfd → ∀ server ∈ s.acceptingServer, _) ↔ (0 ≤ connfd → _)
      refine imp_congr_right fun _ => ?_
      rw [acceptingServer_eq]
      cases s.acceptingIndex with
      | none => simp
      | some i =>
          cases hi : s.servers[i]? with
          | none => simp [hi]
          | some server =>
              have hmem := (connName_mem_iff h hnames hi).not
              push Not at hmem
              simp only [Option.bind_some, hi, Option.mem_some_iff, forall_eq']
              exact hmem
  | _ => exact Iff.rfl

/-! ### Runs -/

section Runs

variable {s₀ : EventLoop} {as : List LoopAction}

/-- Every name that a run gives is free exactly when no number comes round to a connection in
the map, by induction on the run. -/
theorem everyStep_freshName_iff (h : s₀.Entered) (hnames : s₀.names.Numbered)
    (hrun : loopMachine.Run s₀ as s) :
    loopMachine.EveryStep s₀ as FreshName ↔ loopMachine.EveryStep s₀ as NoneRound := by
  induction hrun with
  | start => exact iff_of_true Machine.everyStep_nil Machine.everyStep_nil
  | next hrun hlegal hstep ih =>
      rw [Machine.everyStep_snoc hrun, Machine.everyStep_snoc hrun, ← ih]
      refine and_congr_right fun _ => ?_
      exact freshName_iff (entered_of_run h hrun) (numbered_of_run hnames hrun) _

/-- The invariant of the loop holds in a run whose names were free. -/
theorem inv_of_everyStep (h : s₀.Inv) (hrun : loopMachine.Run s₀ as s)
    (hfit : loopMachine.EveryStep s₀ as FunctorsFit)
    (hfresh : loopMachine.EveryStep s₀ as FreshName) : s.Inv := by
  refine h.inv_of_run (Machine.run_restrict.mpr ⟨Machine.run_restrict.mpr ⟨hrun, hfit⟩, ?_⟩)
  exact fun pre a t hpre ht => hfresh pre a t hpre ht.of_restrict

/-- Connection names stay unique. In every run of the loop, with any number of connections that
stay open:

- no connection gets the name of one in `connections_` in exactly the runs in which no server
  accepts a connection while its map has one that it accepted a multiple of `2 ^ 32` connections
  before;
- so in exactly these runs the names are free and the maps hold the connections that did not
  close, and there every step returns, `removeConnection` with its assertion included.

The second part is about what `connectDestroyed` does. `FunctorsFit` says that the user does not
queue functors until the batch is too large and dropped with its `connectDestroyed`. A run without
functors of the user meets it. -/
theorem connection_names_unique_iff {timerfd wakeupFd : Int}
    (hnew : new timerfd wakeupFd = some s₀) (htimerfd : 0 ≤ timerfd) (hwakeupFd : 0 ≤ wakeupFd)
    (hne : timerfd ≠ wakeupFd) (hrun : loopMachine.Run s₀ as s) :
    (loopMachine.EveryStep s₀ as FreshName ↔ loopMachine.EveryStep s₀ as NoneRound) ∧
    (loopMachine.EveryStep s₀ as FunctorsFit →
      ((loopMachine.EveryStep s₀ as FreshName ∧ loopMachine.Throughout s₀ as HoldsOpen) ↔
        loopMachine.EveryStep s₀ as NoneRound) ∧
      (loopMachine.EveryStep s₀ as NoneRound → ∀ a, s.Legal a → FunctorsFit s a → NoneRound s a →
        (s.step a).isSome)) := by
  have hinv := new_inv hnew htimerfd hwakeupFd hne
  have hnames := new_numbered hnew
  have hentered := new_entered hnew
  have hiff := everyStep_freshName_iff hentered hnames hrun
  refine ⟨hiff, fun hfit => ⟨⟨fun hunique => hiff.mp hunique.1, fun hround =>
    ⟨hiff.mpr hround, fun pre t hpre ht => ?_⟩⟩, fun hround a hlegal hfits hlast => ?_⟩⟩
  · -- What holds of every step holds of the steps up to `t`.
    refine (inv_of_everyStep hinv ht ?_ ?_).holdsOpen
    · exact fun pre' b u hpre' hu => hfit pre' b u (hpre'.trans hpre) hu
    · exact fun pre' b u hpre' hu => hiff.mpr hround pre' b u (hpre'.trans hpre) hu
  · have h := inv_of_everyStep hinv hrun hfit (hiff.mpr hround)
    have hfresh :=
      (freshName_iff (entered_of_run hentered hrun) (numbered_of_run hnames hrun) a).mpr hlast
    obtain ⟨s', hs', -⟩ := h.inv_step hlegal hfits hfresh
    rw [hs']
    rfl

end Runs

/-- The theorem at a server with two connections. -/
theorem connection_names_unique_two : ∃ (s₀ s : EventLoop) (as : List LoopAction),
    loopMachine.Run s₀ as s ∧ s.conns.map (·.name) = ["s#1", "s#2"] ∧
      loopMachine.EveryStep s₀ as FreshName ∧ loopMachine.Throughout s₀ as HoldsOpen := by
  obtain ⟨s₀, s, hnew, hrun, hnames⟩ := Machine.exists_run_from
    (M := loopMachine.restrict fun s a => NoneRound s a ∧ FunctorsFit s a)
    (P := fun s : EventLoop => s.conns.map (·.name) = ["s#1", "s#2"]) (new 3 4)
    [.startServer "s" 5, .poll [0, 0, 1] 1, .handleEvent, .runHandler 7 (.error 0) (.ok 0),
      .callbackReturns, .doPendingFunctors, .endFunctors, .poll [0, 0, 1, 0] 1, .handleEvent,
      .runHandler 8 (.error 0) (.ok 0)]
    (by decide +kernel)
  obtain ⟨hrun, hsteps⟩ := Machine.run_restrict.mp hrun
  have hround : loopMachine.EveryStep s₀ _ NoneRound := fun pre a t hpre ht =>
    (hsteps pre a t hpre ht).1
  have hfit : loopMachine.EveryStep s₀ _ FunctorsFit := fun pre a t hpre ht =>
    (hsteps pre a t hpre ht).2
  exact ⟨s₀, s, _, hrun, hnames, ((connection_names_unique_iff hnew (by decide) (by decide)
    (by decide) hrun).2 hfit).1.mpr hround⟩

/-- A name does come back: one client stays, and `2 ^ 32 - 1` others come and go. -/
theorem not_connection_names_unique : ¬ ∀ (timerfd wakeupFd : Int) (s₀ s : EventLoop)
    (as : List LoopAction), new timerfd wakeupFd = some s₀ → 0 ≤ timerfd → 0 ≤ wakeupFd →
      timerfd ≠ wakeupFd → loopMachine.Run s₀ as s →
      loopMachine.EveryStep s₀ as FreshName ∧ loopMachine.Throughout s₀ as HoldsOpen := by
  intro hall
  have hsome : (new 3 4).isSome := by decide +kernel
  obtain ⟨s₀, hnew⟩ := Option.isSome_iff_exists.mp hsome
  obtain ⟨as, s, hrun, id, hs, hcollected⟩ := leads_reuse s₀ hnew
  obtain ⟨a, t, hlegal, hfit, hstep, k, hk, hclose⟩ := step_reuse hs hcollected
  obtain ⟨hfresh, -⟩ := hall 3 4 s₀ t (as ++ [a]) hnew (by decide) (by decide) (by decide)
    (hrun.next hlegal hstep)
  -- Under a free name the step would keep the invariant, and destroy nothing.
  obtain ⟨t', ht', hinv⟩ :=
    hs.inv.inv_step hlegal hfit ((Machine.everyStep_snoc hrun).mp hfresh).2
  rw [hstep, Option.some.injEq] at ht'
  exact (ht' ▸ hinv).batchSafe.close k hk hclose

end EventLoop

end SecondGear
