import SecondGear.Model.Servers
import SecondGear.Proofs.DeferredDestruction
import SecondGear.Proofs.LoopObjects

/-!
# `SecondGear.Proofs.Servers`: the entries of the table and their owners

`NoStaleEntry` says that the owner of each registered channel is alive and its descriptor
open, and that the table has one entry for each descriptor. Connections see to that: their
channel is removed before they are destroyed. `~TcpServer` does not see to it: a server that
listens leaves the channel of its acceptor in the table, and those of its connections.

`ServerInv` ties the server objects to the servers of the loop. It holds as long as only
servers that never listened are destroyed, and the loop keeps its own invariant there.

* `ServerInv.step`: such a step finds its owner, returns, and keeps the invariant.
* `no_stale_entry`: in every run of such steps no entry outlives its owner.
* `ServerInv.destroy_iff`: the destructor of a server keeps it so only if the server never
  listened.
* `not_no_stale_entry`: a dead acceptor stays in the table, and its descriptor comes twice.
-/

set_option autoImplicit false

namespace SecondGear

open SecondGear.Lib EventLoop

/-- The table has one entry for each descriptor. -/
theorem Poller.Table.owner_nodup {p : Poller} (h : p.Table) :
    (p.pollfds.map PollFd.owner).Nodup := by
  refine List.pairwise_iff_getElem.mpr fun i j hi hj hlt heq => ?_
  rw [List.length_map] at hi hj
  rw [List.getElem_map, List.getElem_map] at heq
  obtain ⟨c, hc, hci, -, hcfor⟩ := h.slot_entry (List.getElem?_eq_getElem hi)
  obtain ⟨d, hd, hdj, -, hdfor⟩ := h.slot_entry (List.getElem?_eq_getElem hj)
  -- One descriptor is one channel, and a channel has one index.
  rw [hcfor.owner_eq (h.nonneg c hc), hdfor.owner_eq (h.nonneg d hd)] at heq
  have hcd : c = d := by
    by_contra hne
    exact Poller.Table.fd_ne hd hc hne heq
  rw [hcd, hdj] at hci
  omega

namespace ServerLoop

variable {s₀ s s' : ServerLoop} {loop' : EventLoop} {o : ServerObject} {j : Nat}

/-- No entry of the table outlives its owner. -/
structure NoStaleEntry (s : ServerLoop) : Prop where
  alive : ∀ e ∈ s.loop.poller.channels.entries, ∃ owner, s.loop.owners[e.2]? = some owner ∧
    s.OwnerAlive owner ∧ (s.loop.poller.channel e.2).fd ∈ s.openFds
  once : (s.loop.poller.pollfds.map PollFd.owner).Nodup

/-- The server objects and the servers of the loop belong to each other. -/
structure ServerInv (s : ServerLoop) : Prop where
  loop : s.loop.Inv
  object : ∀ (i : Nat) server, s.loop.servers[i]? = some server → ∃ (j : Nat) (o : ServerObject),
    s.objects[j]? = some o ∧ o.started = some i ∧ o.destroyed = false ∧
      o.acceptSocket = server.acceptSocket
  number : ∀ (j : Nat) o i, s.objects[j]? = some o → o.started = some i →
    i < s.loop.servers.length
  single : ∀ (j j' : Nat) o o' i, s.objects[j]? = some o → s.objects[j']? = some o' →
    o.started = some i → o'.started = some i → j = j'
  channel : ∀ i < s.loop.servers.length, ∃ c : Nat, s.loop.owners[c]? = some (.acceptor i)
  /-- a server that does not listen has a descriptor of its own -/
  waiting : ∀ (j : Nat) o, s.objects[j]? = some o → o.started = none → o.destroyed = false →
    0 ≤ o.acceptSocket ∧ o.acceptSocket < 2 ^ 31 ∧ o.acceptSocket ∉ s.loop.openFds
  apart : ∀ (j j' : Nat) o o', s.objects[j]? = some o → s.objects[j']? = some o' →
    o.started = none → o'.started = none → o.destroyed = false → o'.destroyed = false →
    o.acceptSocket = o'.acceptSocket → j = j'

/-- The descriptor of a server that is not destroyed is open. -/
theorem mem_openFds_of_object (hj : s.objects[j]? = some o) (halive : o.destroyed = false) :
    o.acceptSocket ∈ s.openFds := by
  have hopen : o.openFd = some o.acceptSocket := by
    rw [ServerObject.openFd, if_neg (by rw [halive]; simp)]
  have hmem := List.mem_filterMap.mpr ⟨o, List.mem_of_getElem? hj, hopen⟩
  exact List.mem_cons_of_mem _ (List.mem_cons_of_mem _ (List.mem_append_left _ hmem))

/-- One object changed. -/
theorem getElem?_set_object (hj : s.objects[j]? = some o) (o' : ServerObject) (i : Nat) :
    (s.objects.set j o')[i]? = if i = j then some o' else s.objects[i]? := by
  have hlt := (List.getElem?_eq_some_iff.mp hj).1
  rw [List.getElem?_set]
  by_cases hij : i = j
  · rw [if_pos hij.symm, if_pos hij, if_pos hlt]
  · rw [if_neg (Ne.symm hij), if_neg hij]

/-- What `startServer` adds to the loop. -/
theorem startServer_adds {s s' : EventLoop} {name : String} {fd : Int}
    (h : s.step (.startServer name fd) = some s') :
    s'.owners = s.owners ++ [.acceptor s.servers.length] ∧
      s'.servers = s.servers ++ [.new name fd] := by
  obtain ⟨t, hbody, rfl⟩ := Option.map_eq_some_iff.mp h
  obtain ⟨p, -, hbody⟩ := bind_eq_some_iff.mp hbody
  cases hbody
  exact ⟨rfl, rfl⟩

/-! ### What the invariant is good for -/

namespace ServerInv

/-- What the loop takes for open is open. -/
theorem mem_openFds (h : s.ServerInv) {fd : Int} (hfd : fd ∈ s.loop.openFds) :
    fd ∈ s.openFds := by
  rcases List.mem_append.mp hfd with hservice | hconn
  · rcases List.mem_cons.mp hservice with rfl | hservice
    · exact List.mem_cons_self
    · rcases List.mem_cons.mp hservice with rfl | hserver
      · exact List.mem_cons_of_mem _ List.mem_cons_self
      · obtain ⟨server, hmem, rfl⟩ := List.mem_map.mp hserver
        obtain ⟨i, hi⟩ := List.getElem?_of_mem hmem
        obtain ⟨j, o, hj, -, halive, hsocket⟩ := h.object i server hi
        rw [← hsocket]
        exact mem_openFds_of_object hj halive
  · exact List.mem_cons_of_mem _ (List.mem_cons_of_mem _ (List.mem_append_right _ hconn))

/-- The owner of a registered channel is alive. -/
theorem ownerAlive (h : s.ServerInv) {c : ChannelPtr} (hreg : s.loop.poller.Registered c)
    {owner : Owner} (howner : s.loop.owners[c]? = some owner) : s.OwnerAlive owner := by
  cases owner with
  | timerQueue => trivial
  | wakeup => trivial
  | acceptor i =>
      have hi := h.loop.listed.acceptor c i howner
      obtain ⟨j, o, hj, hstarted, halive, -⟩ := h.object i _ (List.getElem?_eq_getElem hi)
      exact ⟨o, List.mem_of_getElem? hj, hstarted, halive⟩
  | connection id => exact h.loop.alive_of_registered hreg howner

/-- The invariant keeps stale entries out. -/
theorem noStaleEntry (h : s.ServerInv) : s.NoStaleEntry where
  alive e he := by
    have hlookup : s.loop.poller.channels.lookup e.1 = some e.2 := AList.mem_lookup_iff.mpr he
    have hreg := (h.loop.wired.table.lookup_iff.mp hlookup).1
    have howner := List.getElem?_eq_getElem (h.loop.wired.owned e.2 hreg)
    exact ⟨_, howner, h.ownerAlive hreg howner, h.mem_openFds (h.loop.registered_open hreg)⟩
  once := h.loop.wired.table.owner_nodup

/-- No callback runs into an object that is gone. -/
theorem findsOwner (h : s.ServerInv) (a : LoopAction) : s.FindsOwner a := by
  cases a with
  | runHandler connfd readv write =>
      intro owner howner
      cases hpc : s.loop.pc with
      | poll => simp [currentOwner, hpc] at howner
      | doPendingFunctors done rest => simp [currentOwner, hpc] at howner
      | dispatch current rest =>
          cases current with
          | nil => simp [currentOwner, hpc] at howner
          | cons x current =>
              obtain ⟨c, handler⟩ := x
              simp only [currentOwner, hpc] at howner
              -- The channel is in the batch, so it is registered.
              have htodo : c ∈ s.loop.pc.todo := by
                rw [hpc]
                exact List.mem_append_left _ List.mem_cons_self
              have hreg := h.loop.dispatched.batch (by rw [hpc]; rfl) c
                (h.loop.dispatched.sub c htodo)
              exact h.ownerAlive hreg howner
  | _ => trivial

/-! ### Steps -/

/-- The loop goes on, and a new descriptor is one that was closed. -/
theorem of_kept (h : s.ServerInv) (hinv : loop'.Inv) {accepted : Option Int}
    (hkept : Kept accepted none s.loop loop')
    (hfree : ∀ fd ∈ accepted, 0 ≤ fd → fd ∉ s.openFds) :
    ({ s with loop := loop' } : ServerLoop).ServerInv where
  loop := hinv
  object i server' hi := by
    obtain ⟨server, hserver, hsocket⟩ := hkept.exists_server hi
    rw [← hsocket]
    exact h.object i server hserver
  number j o i hj hstarted := by
    rw [hkept.length_servers]
    exact h.number j o i hj hstarted
  single := h.single
  channel i hi := by
    rw [hkept.length_servers] at hi
    obtain ⟨c, hc⟩ := h.channel i hi
    obtain ⟨more, hmore⟩ := hkept.owners
    refine ⟨c, ?_⟩
    rw [← hmore, List.getElem?_append_left (List.getElem?_eq_some_iff.mp hc).1]
    exact hc
  waiting j o hj hnone halive := by
    obtain ⟨hnonneg, hint, hclosed⟩ := h.waiting j o hj hnone halive
    refine ⟨hnonneg, hint, fun hopen => ?_⟩
    rcases hkept.openFds hopen with hold | hnew | hserver
    · exact hclosed hold
    · exact hfree _ hnew hnonneg (mem_openFds_of_object hj halive)
    · cases hserver
  apart := h.apart

/-- A server is created. -/
theorem create (h : s.ServerInv) (name : String) {fd : Int} (hnonneg : 0 ≤ fd)
    (hint : fd < 2 ^ 31) (hfree : fd ∉ s.openFds) :
    ({ s with objects := s.objects ++ [.new name fd] } : ServerLoop).ServerInv := by
  -- An object is one of the old ones, or the new one.
  have hcases : ∀ (j : Nat) o, (s.objects ++ [.new name fd])[j]? = some o →
      s.objects[j]? = some o ∨ j = s.objects.length ∧ o = .new name fd :=
    fun j o hj => EventLoop.getElem?_concat_cases hj
  have hold : ∀ (j : Nat) o, s.objects[j]? = some o →
      (s.objects ++ [.new name fd])[j]? = some o := fun j o hj =>
    (List.getElem?_append_left (List.getElem?_eq_some_iff.mp hj).1).trans hj
  refine ⟨h.loop, ?_, ?_, ?_, h.channel, ?_, ?_⟩
  · intro i server hi
    obtain ⟨j, o, hj, hrest⟩ := h.object i server hi
    exact ⟨j, o, hold j o hj, hrest⟩
  · intro j o i hj hstarted
    rcases hcases j o hj with hj | ⟨-, rfl⟩
    · exact h.number j o i hj hstarted
    · cases hstarted
  · intro j j' o o' i hj hj' hstarted hstarted'
    rcases hcases j o hj with hj | ⟨-, rfl⟩
    · rcases hcases j' o' hj' with hj' | ⟨-, rfl⟩
      · exact h.single j j' o o' i hj hj' hstarted hstarted'
      · cases hstarted'
    · cases hstarted
  · intro j o hj hnone halive
    rcases hcases j o hj with hj | ⟨-, rfl⟩
    · exact h.waiting j o hj hnone halive
    · exact ⟨hnonneg, hint, fun hopen => hfree (h.mem_openFds hopen)⟩
  · intro j j' o o' hj hj' hnone hnone' halive halive' hsocket
    rcases hcases j o hj with hj | ⟨rfl, rfl⟩
    · rcases hcases j' o' hj' with hj' | ⟨-, rfl⟩
      · exact h.apart j j' o o' hj hj' hnone hnone' halive halive' hsocket
      · have hopen := mem_openFds_of_object hj halive
        rw [hsocket] at hopen
        exact absurd hopen hfree
    · rcases hcases j' o' hj' with hj' | ⟨rfl, -⟩
      · have hopen := mem_openFds_of_object hj' halive'
        rw [← hsocket] at hopen
        exact absurd hopen hfree
      · rfl

/-- A server that waited listens. -/
theorem start (h : s.ServerInv) (hj : s.objects[j]? = some o) (hnone : o.started = none)
    (halive : o.destroyed = false) (hinv : loop'.Inv)
    (hstep : s.loop.step (.startServer o.name o.acceptSocket) = some loop') :
    ServerInv { loop := loop', objects := s.objects.set j (o.listen s.loop.servers.length) } := by
  have hget := getElem?_set_object hj (o.listen s.loop.servers.length)
  obtain ⟨howners, hservers⟩ := startServer_adds hstep
  have hlength : loop'.servers.length = s.loop.servers.length + 1 := by simp [hservers]
  -- The new number is no other server's.
  have hnumber : ∀ (i : Nat) o' n,
      (s.objects.set j (o.listen s.loop.servers.length))[i]? = some o' → o'.started = some n →
      i = j ∧ n = s.loop.servers.length ∨
        i ≠ j ∧ s.objects[i]? = some o' ∧ n < s.loop.servers.length := by
    intro i o' n hi hstarted
    rw [hget] at hi
    split at hi
    · rename_i hij
      cases hi
      exact Or.inl ⟨hij, (Option.some.inj hstarted).symm⟩
    · rename_i hij
      exact Or.inr ⟨hij, hi, h.number i o' n hi hstarted⟩
  -- The object that has started waits no more.
  have hwaits : ∀ (i : Nat) o',
      (s.objects.set j (o.listen s.loop.servers.length))[i]? = some o' → o'.started = none →
      i ≠ j ∧ s.objects[i]? = some o' := by
    intro i o' hi hstarted
    rw [hget] at hi
    split at hi
    · cases hi
      cases hstarted
    · rename_i hij
      exact ⟨hij, hi⟩
  refine ⟨hinv, ?_, ?_, ?_, ?_, ?_, ?_⟩
  · -- object
    intro i server hi
    rw [hservers] at hi
    rcases EventLoop.getElem?_concat_cases hi with hold | ⟨hi', rfl⟩
    · obtain ⟨j', o', hj', hstarted, hrest⟩ := h.object i server hold
      have hne : j' ≠ j := by
        rintro rfl
        rw [hj, Option.some.injEq] at hj'
        rw [← hj', hnone] at hstarted
        cases hstarted
      exact ⟨j', o', ((hget j').trans (if_neg hne)).trans hj', hstarted, hrest⟩
    · have hself := (hget j).trans (if_pos rfl)
      have hstarted : (o.listen s.loop.servers.length).started = some i := by
        rw [hi']
        rfl
      exact ⟨j, _, hself, hstarted, halive, by simp [TcpServer.new, ServerObject.listen]⟩
  · -- number
    intro i o' n hi hstarted
    rw [hlength]
    rcases hnumber i o' n hi hstarted with ⟨-, rfl⟩ | ⟨-, -, hlt⟩
    · exact Nat.lt_succ_self _
    · exact Nat.lt_succ_of_lt hlt
  · -- single
    intro i i' o₁ o₂ n hi hi' hstarted hstarted'
    rcases hnumber i o₁ n hi hstarted with ⟨rfl, hn⟩ | ⟨-, hold, hlt⟩
    · rcases hnumber i' o₂ n hi' hstarted' with ⟨rfl, -⟩ | ⟨-, -, hlt⟩
      · rfl
      · omega
    · rcases hnumber i' o₂ n hi' hstarted' with ⟨rfl, hn⟩ | ⟨-, hold', -⟩
      · omega
      · exact h.single i i' o₁ o₂ n hold hold' hstarted hstarted'
  · -- channel
    intro i hi
    rw [howners]
    rcases Nat.lt_or_ge i s.loop.servers.length with hlt | hge
    · obtain ⟨c, hc⟩ := h.channel i hlt
      exact ⟨c, (List.getElem?_append_left (List.getElem?_eq_some_iff.mp hc).1).trans hc⟩
    · have hi' : i = s.loop.servers.length := by
        rw [hlength] at hi
        omega
      exact ⟨s.loop.owners.length, by rw [List.getElem?_concat_length, hi']⟩
  · -- waiting
    intro i o' hi hstarted halive'
    obtain ⟨hij, hold⟩ := hwaits i o' hi hstarted
    obtain ⟨hnonneg, hint, hclosed⟩ := h.waiting i o' hold hstarted halive'
    refine ⟨hnonneg, hint, fun hopen => ?_⟩
    rcases (step_kept hstep).openFds hopen with hopen | hnew | hsocket
    · exact hclosed hopen
    -- the descriptor that was opened is that of this object, and no other's
    · cases hnew
    · exact hij (h.apart i j o' o hold hj hstarted hnone halive' halive
        (Option.some.inj hsocket).symm)
  · -- apart
    intro i i' o₁ o₂ hi hi' hstarted hstarted'
    exact h.apart i i' o₁ o₂ (hwaits i o₁ hi hstarted).2 (hwaits i' o₂ hi' hstarted').2 hstarted
      hstarted'

/-- A server that never listened is destroyed. -/
theorem destroy (h : s.ServerInv) (hj : s.objects[j]? = some o) (hnone : o.started = none) :
    ({ s with objects := s.objects.set j o.close } : ServerLoop).ServerInv := by
  have hget := getElem?_set_object hj o.close
  -- An object that listens, or is not destroyed, is one of the others.
  have hother : ∀ (i : Nat) o', (s.objects.set j o.close)[i]? = some o' →
      o'.started ≠ none ∨ o'.destroyed = false → s.objects[i]? = some o' := by
    intro i o' hi hkind
    rw [hget] at hi
    split at hi
    · cases hi
      rcases hkind with hstarted | halive
      · exact absurd hnone hstarted
      · cases halive
    · exact hi
  have hstarted : ∀ (i : Nat) o' n, (s.objects.set j o.close)[i]? = some o' →
      o'.started = some n → s.objects[i]? = some o' := fun i o' n hi hn =>
    hother i o' hi (Or.inl (by rw [hn]; simp))
  refine ⟨h.loop, ?_, ?_, ?_, h.channel, ?_, ?_⟩
  · intro i server hi
    obtain ⟨j', o', hj', hn, hrest⟩ := h.object i server hi
    refine ⟨j', o', ?_, hn, hrest⟩
    rw [hget, if_neg]
    · exact hj'
    · rintro rfl
      rw [hj, Option.some.injEq] at hj'
      rw [← hj', hnone] at hn
      cases hn
  · intro i o' n hi hn
    exact h.number i o' n (hstarted i o' n hi hn) hn
  · intro i i' o₁ o₂ n hi hi' hn hn'
    exact h.single i i' o₁ o₂ n (hstarted i o₁ n hi hn) (hstarted i' o₂ n hi' hn') hn hn'
  · intro i o' hi hn halive
    exact h.waiting i o' (hother i o' hi (Or.inr halive)) hn halive
  · intro i i' o₁ o₂ hi hi' hn hn' halive halive'
    exact h.apart i i' o₁ o₂ (hother i o₁ hi (Or.inr halive)) (hother i' o₂ hi' (Or.inr halive'))
      hn hn' halive halive'

/-- What is promised about an action here is what the loop relies on. -/
theorem loop_legal (h : s.ServerInv) {a : LoopAction} (hlegal : s.LoopLegal a) :
    s.loop.Legal a ∧ listeningBy a = none ∧
      ∀ fd ∈ acceptedBy a, 0 ≤ fd → fd ∉ s.openFds := by
  cases a with
  | startServer name fd => exact absurd hlegal id
  | runHandler connfd readv write =>
      obtain ⟨hframe, hat, hfree⟩ := hlegal
      refine ⟨⟨hframe, hat, fun hnonneg => ⟨(hfree hnonneg).1, fun hopen => ?_⟩⟩, rfl,
        fun fd hfd hnonneg => ?_⟩
      · exact (hfree hnonneg).2 (h.mem_openFds hopen)
      · rw [← Option.some.inj hfd] at hnonneg ⊢
        exact (hfree hnonneg).2
  | _ => exact ⟨hlegal, rfl, fun fd hfd => by cases hfd⟩

end ServerInv

/-- A server is destroyed only if it never listened, no connection is accepted under a name
that its server's map still has, and the `int` holds the size of a batch with functors of the
user. -/
def KeepsOwners (s : ServerLoop) : ServerAction → Prop
  | .loop a => FunctorsFit s.loop a ∧ FreshName s.loop a
  | .destroy j => ∀ o ∈ s.objects[j]?, o.started = none
  | .create _ _ | .start _ => True

instance (s : ServerLoop) : (a : ServerAction) → Decidable (s.KeepsOwners a)
  | .loop a => inferInstanceAs (Decidable (FunctorsFit s.loop a ∧ FreshName s.loop a))
  | .destroy j => inferInstanceAs (Decidable (∀ o ∈ s.objects[j]?, o.started = none))
  | .create _ _ | .start _ => isTrue trivial

namespace ServerInv

/-- Such a step returns, and keeps the invariant. -/
theorem step (h : s.ServerInv) {a : ServerAction} (hlegal : s.Legal a)
    (hkeeps : s.KeepsOwners a) : ∃ s', s.step a = some s' ∧ s'.ServerInv := by
  cases a with
  | loop a =>
      obtain ⟨hloop, hlistening, hfree⟩ := h.loop_legal hlegal
      obtain ⟨loop', hstep, hinv⟩ := h.loop.inv_step hloop hkeeps.1 hkeeps.2
      have hkept := step_kept hstep
      rw [hlistening] at hkept
      refine ⟨{ s with loop := loop' }, ?_, h.of_kept hinv hkept hfree⟩
      rw [ServerLoop.step, assert_bind_pos (h.findsOwner a), hstep]
      rfl
  | create name fd =>
      exact ⟨_, rfl, h.create name hlegal.2.1 hlegal.2.2.1 hlegal.2.2.2⟩
  | start j =>
      obtain ⟨huser, o, hj, halive⟩ := hlegal
      rw [Option.mem_def] at hj
      cases hstarted : o.started with
      | some i =>
          -- The acceptor listens already.
          refine ⟨s, ?_, h⟩
          simp [ServerLoop.step, ServerLoop.start, hj, hstarted]
      | none =>
          have hlisten : s.loop.Legal (.startServer o.name o.acceptSocket) :=
            ⟨huser, h.waiting j o hj hstarted halive⟩
          obtain ⟨loop', hstep, hinv⟩ := h.loop.inv_step hlisten trivial trivial
          refine ⟨_, ?_, h.start hj hstarted halive hinv hstep⟩
          simp [ServerLoop.step, ServerLoop.start, hj, hstarted, hstep]
  | destroy j =>
      obtain ⟨-, o, hj, -⟩ := hlegal
      have hnone : o.started = none := hkeeps o hj
      rw [Option.mem_def] at hj
      refine ⟨_, ?_, h.destroy hj hnone⟩
      simp [ServerLoop.step, ServerLoop.destroy, hj, hnone]

/-- The destructor leaves a server's acceptor in the table if it listened. -/
theorem destroy_iff (h : s.ServerInv) (hj : s.objects[j]? = some o)
    (hstep : s.step (.destroy j) = some s') : s'.NoStaleEntry ↔ o.started = none := by
  cases hstarted : o.started with
  | none =>
      have hnew : s' = { s with objects := s.objects.set j o.close } := by
        simpa [ServerLoop.step, ServerLoop.destroy, hj, hstarted] using hstep.symm
      rw [hnew]
      exact iff_of_true (h.destroy hj hstarted).noStaleEntry rfl
  | some i =>
      refine iff_of_false (fun hno => ?_) (by simp)
      have hi := h.number j o i hj hstarted
      obtain ⟨c, hc⟩ := h.channel i hi
      have hreg := (h.loop.wired.service c _ hc (by simp)).1
      -- The destructor does not touch the table.
      obtain ⟨loop', hmembers, rfl⟩ : ∃ loop', destroyMembers s.loop i = some loop' ∧
          s' = { loop := loop', objects := s.objects.set j o.close } := by
        simp only [ServerLoop.step, ServerLoop.destroy, hj, hstarted, Option.bind_eq_bind,
          Option.bind_some] at hstep
        obtain ⟨loop', hmembers, heq⟩ := Option.bind_eq_some_iff.mp hstep
        exact ⟨loop', hmembers, (Option.some.inj heq).symm⟩
      obtain ⟨server, -, hmembers⟩ := bind_eq_some_iff.mp hmembers
      cases hmembers
      obtain ⟨owner, howner, halive, -⟩ := hno.alive ⟨_, c⟩ (AList.mem_lookup_iff.mp hreg)
      have hacceptor : owner = .acceptor i := Option.some.inj (howner.symm.trans hc)
      rw [hacceptor] at halive
      obtain ⟨o', hmem, hstarted', halive'⟩ := halive
      obtain ⟨j', hj'⟩ := List.getElem?_of_mem hmem
      rw [getElem?_set_object hj] at hj'
      split at hj'
      · cases hj'
        cases halive'
      · rename_i hne
        exact hne (h.single j' j o' o i hj' hj hstarted' hstarted)

/-- A run of such steps. -/
theorem of_run (h : s₀.ServerInv) {as : List ServerAction}
    (hrun : (serverMachine.restrict KeepsOwners).Run s₀ as s) : s.ServerInv := by
  refine hrun.invariant h fun t a t' ht hlegal hstep => ?_
  obtain ⟨u, hu, hinv⟩ := ht.step hlegal.1 hlegal.2
  have heq : some u = some t' := hu.symm.trans hstep
  exact Option.some.inj heq ▸ hinv

end ServerInv

/-- The invariant holds of a loop without servers. -/
theorem new_serverInv {timerfd wakeupFd : Int} (hnew : new timerfd wakeupFd = some s₀)
    (htimerfd : 0 ≤ timerfd) (hwakeupFd : 0 ≤ wakeupFd) (hne : timerfd ≠ wakeupFd) :
    s₀.ServerInv := by
  obtain ⟨loop, hloop, rfl⟩ := Option.map_eq_some_iff.mp hnew
  have hservers : loop.servers = [] := by
    obtain ⟨p, -, hloop⟩ := bind_eq_some_iff.mp hloop
    obtain ⟨p', -, hloop⟩ := bind_eq_some_iff.mp hloop
    cases hloop
    rfl
  exact ⟨new_inv hloop htimerfd hwakeupFd hne, by simp [hservers], by simp, by simp,
    by simp [hservers], by simp, by simp⟩

/-! ### Runs -/

/-- In every state of every run in which only servers are destroyed that never listened, no
connection is accepted under a name in use, and the `int` holds the size of a batch with
functors of the user, no entry of the table outlives its owner. -/
theorem no_stale_entry {timerfd wakeupFd : Int} {as : List ServerAction}
    (hnew : new timerfd wakeupFd = some s₀) (htimerfd : 0 ≤ timerfd) (hwakeupFd : 0 ≤ wakeupFd)
    (hne : timerfd ≠ wakeupFd) (hrun : serverMachine.Run s₀ as s)
    (hkeeps : serverMachine.EveryStep s₀ as KeepsOwners) : s.NoStaleEntry :=
  ((new_serverInv hnew htimerfd hwakeupFd hne).of_run
    (Machine.run_restrict.mpr ⟨hrun, hkeeps⟩)).noStaleEntry

/-- A server is destroyed that never listened, and the descriptor of its acceptor is given to
a connection of another server. -/
theorem no_stale_entry_reused :
    ∃ s : ServerLoop, s.loop.pc = .poll ∧ s.loop.poller.pollfds.length = 4 ∧ s.NoStaleEntry := by
  obtain ⟨s₀, s, hnew, hrun, hpc, hlen⟩ := Machine.exists_run_from
    (M := serverMachine.restrict KeepsOwners)
    (P := fun s : ServerLoop => s.loop.pc = .poll ∧ s.loop.poller.pollfds.length = 4) (new 3 4)
    [.create "s" 5, .create "t" 6, .start 0, .destroy 1, .loop (.poll [0, 0, 1] 1),
      .loop .handleEvent, .loop (.runHandler 6 (.error 0) (.ok 0)), .loop .callbackReturns,
      .loop .doPendingFunctors, .loop .endFunctors]
    (by decide +kernel)
  obtain ⟨hrun', hkeeps⟩ := Machine.run_restrict.mp hrun
  exact ⟨s, hpc, hlen,
    no_stale_entry hnew (by decide) (by decide) (by decide) hrun' hkeeps⟩

/-- A server that listens is destroyed, and the next one gets the descriptor of its acceptor:
the table has two entries for it. -/
theorem not_no_stale_entry : ¬ ∀ (timerfd wakeupFd : Int) (s₀ s : ServerLoop)
    (as : List ServerAction), new timerfd wakeupFd = some s₀ → 0 ≤ timerfd → 0 ≤ wakeupFd →
      timerfd ≠ wakeupFd → serverMachine.Run s₀ as s → s.loop.pc = .poll → s.NoStaleEntry := by
  intro hall
  obtain ⟨s₀, s, hnew, hrun, hpc, htwice⟩ := Machine.exists_run_from (M := serverMachine)
    (P := fun s : ServerLoop => s.loop.pc = .poll ∧
      ¬ (s.loop.poller.pollfds.map PollFd.owner).Nodup) (new 3 4)
    [.create "s" 5, .start 0, .destroy 0, .create "t" 5, .start 1]
    (by decide +kernel)
  exact htwice (hall 3 4 s₀ s _ hnew (by decide) (by decide) (by decide) hrun hpc).once

end ServerLoop

end SecondGear
