import TgFocus.Startup

/-! At most one daemon. Who serves listens on both ports, and a port has one listener. A process that got
    one port only waits for ever and keeps it: from then on nobody serves. Startups of which none begins
    before the one before it is over do not come there, as long as none gives up at a daemon that does not
    accept. -/

namespace TgFocus.Startup
open Transition

/-! ### The steps of a process -/

inductive ProcStep (room : Nat) (s : State) (k : Nat) : State → Prop where
  | told (hpc : s.procs[k]? = some .connecting) (himmd : s.immd ≠ none) (hroom : s.queue < room) :
      ProcStep room s k { s.move k .told with queue := s.queue + 1 }
  | fork (hpc : s.procs[k]? = some .connecting) (himmd : s.immd = none) : ProcStep room s k (s.move k .forking)
  | child (hpc : s.procs[k]? = some .forking) : ProcStep room s k (s.move k .bindLazy)
  | lazyBound (hpc : s.procs[k]? = some .bindLazy) (hlazy : s.lazy ≠ none) : ProcStep room s k (s.move k (.bindImmd false))
  | bindLazy (hpc : s.procs[k]? = some .bindLazy) (hlazy : s.lazy = none) : ProcStep room s k (s.move k .listenLazy)
  | lazyTaken (hpc : s.procs[k]? = some .listenLazy) (hlazy : s.lazy ≠ none) :
      ProcStep room s k (s.move k (.bindImmd false))
  | listenLazy (hpc : s.procs[k]? = some .listenLazy) (hlazy : s.lazy = none) :
      ProcStep room s k { s.move k (.bindImmd true) with lazy := some k }
  | immdBound {lazy : Bool} (hpc : s.procs[k]? = some (.bindImmd lazy)) (himmd : s.immd ≠ none) :
      ProcStep room s k (s.move k (.testing lazy false))
  | bindImmd {lazy : Bool} (hpc : s.procs[k]? = some (.bindImmd lazy)) (himmd : s.immd = none) :
      ProcStep room s k (s.move k (.listenImmd lazy))
  | immdTaken {lazy : Bool} (hpc : s.procs[k]? = some (.listenImmd lazy)) (himmd : s.immd ≠ none) :
      ProcStep room s k (s.move k (.testing lazy false))
  | listenImmd {lazy : Bool} (hpc : s.procs[k]? = some (.listenImmd lazy)) (himmd : s.immd = none) :
      ProcStep room s k { s.move k (.testing lazy true) with immd := some k, queue := 0 }
  | serve (hpc : s.procs[k]? = some (.testing true true)) : ProcStep room s k (s.move k .serving)
  | stuck {lazy immd : Bool} (hpc : s.procs[k]? = some (.testing lazy immd)) (hnot : (lazy && immd) = false) :
      ProcStep room s k (s.move k (.stuck lazy immd))
  | closeLazy (hpc : s.procs[k]? = some .closingLazy) : ProcStep room s k { s.move k .closingImmd with lazy := none }
  | closeImmd (hpc : s.procs[k]? = some .closingImmd) : ProcStep room s k { s.move k .gone with immd := none, queue := 0 }

section
variable {room : Nat} {s t : State} {a : Act} {k j : Nat} {pc pc' : Pc}

theorem procStep_cases (h : procStep room s k = some t) : ProcStep room s k t := by
  simp only [procStep, Option.bind_eq_bind, Option.bind_eq_some_iff] at h
  obtain ⟨pc, hpc, h⟩ := h
  cases pc <;> dsimp only at h
  case connecting =>
    split at h
    · rename_i himmd
      obtain ⟨hroom, h⟩ := Option.ite_none_right_eq_some.mp h
      obtain rfl := Option.some.inj h
      exact .told hpc (Option.isSome_iff_ne_none.mp himmd) hroom
    · rename_i himmd
      obtain rfl := Option.some.inj h
      exact .fork hpc (by simpa using himmd)
  case forking => cases h; exact .child hpc
  case bindLazy =>
    split at h <;> cases h
    · rename_i hlazy
      exact .lazyBound hpc (Option.isSome_iff_ne_none.mp hlazy)
    · rename_i hlazy
      exact .bindLazy hpc (by simpa using hlazy)
  case listenLazy =>
    split at h <;> cases h
    · rename_i hlazy
      exact .lazyTaken hpc (Option.isSome_iff_ne_none.mp hlazy)
    · rename_i hlazy
      exact .listenLazy hpc (by simpa using hlazy)
  case bindImmd lazy =>
    split at h <;> cases h
    · rename_i himmd
      exact .immdBound hpc (Option.isSome_iff_ne_none.mp himmd)
    · rename_i himmd
      exact .bindImmd hpc (by simpa using himmd)
  case listenImmd lazy =>
    split at h <;> cases h
    · rename_i himmd
      exact .immdTaken hpc (Option.isSome_iff_ne_none.mp himmd)
    · rename_i himmd
      exact .listenImmd hpc (by simpa using himmd)
  case testing lazy immd =>
    split at h <;> cases h
    · rename_i hboth
      obtain ⟨rfl, rfl⟩ := Bool.and_eq_true_iff.mp hboth
      exact .serve hpc
    · rename_i hboth
      exact .stuck hpc (by simpa using hboth)
  case closingLazy => cases h; exact .closeLazy hpc
  case closingImmd => cases h; exact .closeImmd hpc
  all_goals cases h

theorem getElem?_move (h : s.procs[k]? = some pc) :
    (s.move k pc').procs[j]? = if j = k then some pc' else s.procs[j]? := by
  have hk : k < s.procs.length := (List.getElem?_eq_some_iff.mp h).1
  rw [State.move, List.getElem?_set]
  by_cases hjk : j = k
  · simp [hjk, hk]
  · simp [hjk, Ne.symm hjk]

end

/-! ### Ports and listeners -/

/-- The listener of a port is the process that has it. -/
def Owned (owner : Option Nat) (has : Pc → Bool) (procs : List Pc) : Prop :=
  ∀ k, owner = some k ↔ ∃ pc, procs[k]? = some pc ∧ has pc = true

section
variable {s t : State} {a : Act} {k j : Nat} {pc pc' : Pc} {owner : Option Nat} {has : Pc → Bool}

theorem Owned.move_same (h : Owned owner has s.procs) (hpc : s.procs[k]? = some pc) (hsame : has pc' = has pc) :
    Owned owner has (s.move k pc').procs := by
  intro j
  rw [h j, getElem?_move hpc]
  by_cases hjk : j = k
  · subst hjk
    simp [hpc, hsame]
  · simp [hjk]

theorem Owned.move_take (h : Owned owner has s.procs) (hpc : s.procs[k]? = some pc) (hfree : owner = none)
    (htake : has pc' = true) : Owned (some k) has (s.move k pc').procs := by
  intro j
  rw [getElem?_move hpc]
  by_cases hjk : j = k
  · subst hjk
    simp [htake]
  · have hno := h j
    rw [hfree] at hno
    simp [hjk, Ne.symm hjk, ← hno]

/-- A process that leaves gives up what it had and nothing else. -/
theorem Owned.move_drop (h : Owned owner has s.procs) (hpc : s.procs[k]? = some pc) (hdrop : has pc' = false) :
    Owned (if owner = some k then none else owner) has (s.move k pc').procs := by
  intro j
  have hj := h j
  rw [getElem?_move hpc]
  by_cases hjk : j = k
  · subst hjk
    split <;> simp_all
  · split
    · rename_i hown
      rw [hown] at hj
      simp [Ne.symm hjk, ← hj]
    · simpa [hjk] using hj

theorem Owned.append (h : Owned owner has s.procs) (hpc : has pc = false) : Owned owner has (s.procs ++ [pc]) := by
  intro j
  rw [h j, List.getElem?_append]
  split
  · exact Iff.rfl
  · rename_i hlt
    rw [List.getElem?_eq_none (Nat.le_of_not_lt hlt)]
    refine iff_of_false (by simp) ?_
    rintro ⟨pc', hpc', hhas⟩
    obtain rfl : pc' = pc := List.mem_singleton.mp (List.mem_of_getElem? hpc')
    rw [hpc] at hhas
    cases hhas

theorem Owned.eq_some (h : Owned owner has s.procs) (hpc : s.procs[k]? = some pc) (hhas : has pc = true) :
    owner = some k := (h k).mpr ⟨pc, hpc, hhas⟩

theorem Owned.unique (h : Owned owner has s.procs) (hk : s.procs[k]? = some pc) (hj : s.procs[j]? = some pc')
    (hhas : has pc = true) (hhas' : has pc' = true) : k = j :=
  Option.some.inj ((h.eq_some hk hhas).symm.trans (h.eq_some hj hhas'))

end

def Pc.hasLazy : Pc → Bool
  | .bindImmd lazy | .listenImmd lazy | .testing lazy _ | .stuck lazy _ => lazy
  | .serving | .closingLazy => true
  | _ => false

def Pc.hasImmd : Pc → Bool
  | .testing _ immd | .stuck _ immd => immd
  | .serving | .closingLazy | .closingImmd => true
  | _ => false

structure Held (s : State) : Prop where
  lazy : Owned s.lazy Pc.hasLazy s.procs
  immd : Owned s.immd Pc.hasImmd s.procs

section
variable {room : Nat} {s t : State} {a : Act} {k i j : Nat} {pc pc' : Pc}

theorem Held.move (h : Held s) (hpc : s.procs[k]? = some pc) (hlazy : pc'.hasLazy = pc.hasLazy)
    (himmd : pc'.hasImmd = pc.hasImmd) : Held (s.move k pc') :=
  ⟨h.lazy.move_same hpc hlazy, h.immd.move_same hpc himmd⟩

theorem Held.with_queue (h : Held s) (queue : Nat) : Held { s with queue } := ⟨h.lazy, h.immd⟩

theorem Held.procStep (hi : Held s) (h : ProcStep room s k t) : Held t := by
  cases h with
  | told hpc _ _ =>
    have hmove : Held (s.move k .told) := hi.move hpc rfl rfl
    exact hmove.with_queue (s.queue + 1)
  | fork hpc _ | child hpc | lazyBound hpc _ | bindLazy hpc _ | lazyTaken hpc _ | immdBound hpc _
  | bindImmd hpc _ | immdTaken hpc _ | serve hpc | stuck hpc _ => exact hi.move hpc rfl rfl
  | listenLazy hpc hlazy => exact ⟨hi.lazy.move_take hpc hlazy rfl, hi.immd.move_same hpc rfl⟩
  | listenImmd hpc himmd => exact ⟨hi.lazy.move_same hpc rfl, hi.immd.move_take hpc himmd rfl⟩
  | closeLazy hpc =>
    refine ⟨?_, hi.immd.move_same hpc rfl⟩
    have hdrop := hi.lazy.move_drop hpc (show Pc.hasLazy .closingImmd = false from rfl)
    rwa [if_pos (hi.lazy.eq_some hpc rfl)] at hdrop
  | closeImmd hpc =>
    refine ⟨hi.lazy.move_same hpc rfl, ?_⟩
    have hdrop := hi.immd.move_drop hpc (show Pc.hasImmd .gone = false from rfl)
    rwa [if_pos (hi.immd.eq_some hpc rfl)] at hdrop

theorem Held.step (hi : Held s) (hs : Startup.step room s a = some t) : Held t := by
  cases a with
  | startup =>
    cases hs
    exact ⟨hi.lazy.append rfl, hi.immd.append rfl⟩
  | proc k => exact hi.procStep (procStep_cases hs)
  | giveUp k =>
    obtain ⟨⟨hpc, -⟩, hs⟩ := Option.ite_none_right_eq_some.mp hs
    obtain rfl := Option.some.inj hs
    exact hi.move hpc rfl rfl
  | client | accept k =>
    obtain ⟨-, hs⟩ := Option.ite_none_right_eq_some.mp hs
    obtain rfl := Option.some.inj hs
    exact hi.with_queue _
  | shutdown k =>
    obtain ⟨hpc, hs⟩ := Option.ite_none_right_eq_some.mp hs
    obtain rfl := Option.some.inj hs
    exact hi.move hpc rfl rfl
  | kill k =>
    obtain ⟨⟨hk, -⟩, hs⟩ := Option.ite_none_right_eq_some.mp hs
    obtain rfl := Option.some.inj hs
    have hpc := List.getElem?_eq_getElem hk
    exact ⟨hi.lazy.move_drop hpc rfl, hi.immd.move_drop hpc rfl⟩

theorem held_of_reachable {ok : State → Act → Prop} (h : (system room).ReachableBy ok s) : Held s := by
  refine h.invariant ?_ fun s a t hs _ ht => hs.step ht
  rintro s rfl
  exact ⟨fun k => by simp [start], fun k => by simp [start]⟩

/-! ### Startups one after another -/

/-- On the way to serving. -/
def Pc.starting : Pc → Bool
  | .connecting | .forking | .bindLazy | .listenLazy | .bindImmd _ | .listenImmd _ | .testing _ _ => true
  | _ => false

/-- A startup begins when no other is on its way, and none gives up connecting. -/
def OneByOne (s : State) : Act → Prop
  | .startup => ∀ pc ∈ s.procs, pc.starting = false
  | .giveUp _ => False
  | _ => True

instance (s : State) (a : Act) : Decidable (OneByOne s a) := by
  unfold OneByOne
  split <;> infer_instance

/-- Where a process can be that has got everything that it asked for. -/
def Pc.lucky : Pc → Bool
  | .bindImmd lazy | .listenImmd lazy => lazy
  | .testing lazy immd => lazy && immd
  | .stuck _ _ => false
  | _ => true

/-- Only one process is on its way, behind its connect nobody else has a port, and nobody was refused one. -/
structure Solo (procs : List Pc) : Prop where
  single : ∀ (i j : Nat) (pc pc' : Pc), procs[i]? = some pc → procs[j]? = some pc' → pc.starting = true →
    pc'.starting = true → i = j
  free : ∀ (i : Nat) (pc : Pc), procs[i]? = some pc → pc.starting = true → pc ≠ .connecting →
    ∀ (j : Nat) (pc' : Pc), procs[j]? = some pc' → j ≠ i → pc'.hasLazy = false ∧ pc'.hasImmd = false
  lucky : ∀ (i : Nat) (pc : Pc), procs[i]? = some pc → pc.lucky = true

theorem Owned.none_of_forall {owner : Option Nat} {has : Pc → Bool} (h : Owned owner has s.procs)
    (hno : ∀ (j : Nat) (pc : Pc), s.procs[j]? = some pc → has pc = false) : owner = none := by
  by_contra hown
  obtain ⟨j, hj⟩ := Option.ne_none_iff_exists'.mp hown
  obtain ⟨pc, hpc, hhas⟩ := (h j).mp hj
  rw [hno j pc hpc] at hhas
  cases hhas

/-- Who has not got a port yet finds it free. -/
theorem Solo.lazy_free (hi : Solo s.procs) (hheld : Held s) (hpc : s.procs[k]? = some pc)
    (hstart : pc.starting = true) (hne : pc ≠ .connecting) (hnot : pc.hasLazy = false) : s.lazy = none := by
  refine hheld.lazy.none_of_forall fun j pc' hpc' => ?_
  by_cases hjk : j = k
  · subst hjk
    obtain rfl := Option.some.inj (hpc.symm.trans hpc')
    exact hnot
  · exact (hi.free k pc hpc hstart hne j pc' hpc' hjk).1

theorem Solo.immd_free (hi : Solo s.procs) (hheld : Held s) (hpc : s.procs[k]? = some pc)
    (hstart : pc.starting = true) (hne : pc ≠ .connecting) (hnot : pc.hasImmd = false) : s.immd = none := by
  refine hheld.immd.none_of_forall fun j pc' hpc' => ?_
  by_cases hjk : j = k
  · subst hjk
    obtain rfl := Option.some.inj (hpc.symm.trans hpc')
    exact hnot
  · exact (hi.free k pc hpc hstart hne j pc' hpc' hjk).2

/-- A process moves on: it does not become one that is on its way, and it takes a port only on its way. -/
theorem Solo.move (hi : Solo s.procs) (hpc : s.procs[k]? = some pc) (hlucky : pc'.lucky = true)
    (hstart : pc'.starting = true → pc.starting = true)
    (hfree : pc'.starting = true → pc' ≠ .connecting →
      ∀ (j : Nat) (pc'' : Pc), s.procs[j]? = some pc'' → j ≠ k → pc''.hasLazy = false ∧ pc''.hasImmd = false)
    (hports : pc.starting = true ∨ (pc'.hasLazy = true → pc.hasLazy = true) ∧
      (pc'.hasImmd = true → pc.hasImmd = true)) : Solo (s.move k pc').procs where
  single := by
    intro i j pci pcj hi' hj' hsi hsj
    rw [getElem?_move hpc] at hi' hj'
    -- who is on its way behind the step was so before it
    have hback : ∀ (i : Nat) (pci : Pc), (if i = k then some pc' else s.procs[i]?) = some pci → pci.starting = true →
        ∃ pci₀, s.procs[i]? = some pci₀ ∧ pci₀.starting = true := by
      intro i pci hi' hsi
      split at hi'
      · rename_i hik
        obtain rfl := Option.some.inj hi'
        exact ⟨pc, hik ▸ hpc, hstart hsi⟩
      · exact ⟨pci, hi', hsi⟩
    obtain ⟨pci₀, hi₀, hsi₀⟩ := hback i pci hi' hsi
    obtain ⟨pcj₀, hj₀, hsj₀⟩ := hback j pcj hj' hsj
    exact hi.single i j pci₀ pcj₀ hi₀ hj₀ hsi₀ hsj₀
  free := by
    intro i pci hi' hsi hne j pcj hj' hji
    rw [getElem?_move hpc] at hi' hj'
    split at hi'
    · rename_i hik
      obtain rfl := Option.some.inj hi'
      rw [if_neg (hik ▸ hji)] at hj'
      exact hfree hsi hne j pcj hj' (hik ▸ hji)
    · rename_i hik
      have hothers := hi.free i pci hi' hsi hne
      split at hj'
      · rename_i hjk
        obtain rfl := Option.some.inj hj'
        obtain ⟨hnl, hni⟩ := hothers k pc hpc (Ne.symm hik)
        rcases hports with hs | ⟨hl, him⟩
        · exact absurd (hi.single i k pci pc hi' hpc hsi hs) hik
        · refine ⟨?_, ?_⟩
          · by_contra h
            exact absurd (hl (by simpa using h)) (by simp [hnl])
          · by_contra h
            exact absurd (him (by simpa using h)) (by simp [hni])
      · exact hothers j pcj hj' hji
  lucky := by
    intro i pci hi'
    rw [getElem?_move hpc] at hi'
    split at hi'
    · obtain rfl := Option.some.inj hi'
      exact hlucky
    · exact hi.lucky i pci hi'

/-- A process that goes on on its way, behind its connect. -/
theorem Solo.proceed (hi : Solo s.procs) (hpc : s.procs[k]? = some pc) (hstart : pc.starting = true)
    (hne : pc ≠ .connecting) (hlucky : pc'.lucky = true) : Solo (s.move k pc').procs :=
  hi.move hpc hlucky (fun _ => hstart) (fun _ _ => hi.free k pc hpc hstart hne) (Or.inl hstart)

/-- Behind a connect that was refused nobody else has a port. -/
theorem Solo.fork (hi : Solo s.procs) (hheld : Held s) (hpc : s.procs[k]? = some .connecting)
    (himmd : s.immd = none) : Solo (s.move k .forking).procs := by
  refine hi.move hpc rfl (fun _ => rfl) (fun _ _ j pc' hpc' hjk => ?_) (Or.inl rfl)
  have hnoImmd : pc'.hasImmd = false := by
    by_contra h
    have hown := hheld.immd.eq_some hpc' (by simpa using h)
    rw [himmd] at hown
    cases hown
  refine ⟨?_, hnoImmd⟩
  by_contra h
  have hlucky := hi.lucky j pc' hpc'
  -- who has the first port only is on its way or stuck
  have hstart : pc'.starting = true := by
    cases pc' <;> simp_all [Pc.hasLazy, Pc.hasImmd, Pc.lucky, Pc.starting]
  exact hjk (hi.single j k pc' .connecting hpc' hpc hstart rfl)

theorem Solo.procStep (hi : Solo s.procs) (hheld : Held s) (h : ProcStep room s k t) : Solo t.procs := by
  cases h with
  | told hpc _ _ => exact hi.move hpc rfl (fun h => nomatch h) (fun h => nomatch h) (Or.inl rfl)
  | fork hpc himmd => exact hi.fork hheld hpc himmd
  | child hpc | bindLazy hpc _ | listenLazy hpc _ => exact hi.proceed hpc rfl nofun rfl
  | lazyBound hpc hlazy | lazyTaken hpc hlazy => exact absurd (hi.lazy_free hheld hpc rfl nofun rfl) hlazy
  | immdBound hpc himmd | immdTaken hpc himmd => exact absurd (hi.immd_free hheld hpc rfl nofun rfl) himmd
  | bindImmd hpc _ | listenImmd hpc _ =>
    have hlucky := hi.lucky _ _ hpc
    exact hi.proceed hpc rfl nofun (by simpa [Pc.lucky] using hlucky)
  | serve hpc => exact hi.proceed hpc rfl nofun rfl
  | stuck hpc hnot =>
    have hlucky := hi.lucky _ _ hpc
    rw [Pc.lucky, hnot] at hlucky
    cases hlucky
  | closeLazy hpc | closeImmd hpc =>
    exact hi.move hpc rfl (fun h => nomatch h) (fun h => nomatch h) (Or.inr ⟨nofun, fun _ => rfl⟩)

theorem Solo.step (hi : Solo s.procs) (hheld : Held s) (hok : OneByOne s a) (hs : Startup.step room s a = some t) :
    Solo t.procs := by
  cases a with
  | startup =>
    cases hs
    have hno : ∀ pc ∈ s.procs, pc.starting = false := hok
    have hcases : ∀ (i : Nat) (pc : Pc), (s.procs ++ [Pc.connecting])[i]? = some pc →
        s.procs[i]? = some pc ∧ pc.starting = false ∨ i = s.procs.length ∧ pc = .connecting := by
      intro i pc hpc
      rw [List.getElem?_append] at hpc
      split at hpc
      · exact Or.inl ⟨hpc, hno pc (List.mem_of_getElem? hpc)⟩
      · rename_i hlt
        have hpc' := List.mem_singleton.mp (List.mem_of_getElem? hpc)
        have hlen := (List.getElem?_eq_some_iff.mp hpc).1
        simp only [List.length_cons, List.length_nil] at hlen
        exact Or.inr ⟨by omega, hpc'⟩
    refine ⟨?_, ?_, ?_⟩
    · intro i j pci pcj hpci hpcj hsi hsj
      rcases hcases i pci hpci with ⟨-, hf⟩ | ⟨rfl, -⟩
      · rw [hsi] at hf
        cases hf
      · rcases hcases j pcj hpcj with ⟨-, hf⟩ | ⟨rfl, -⟩
        · rw [hsj] at hf
          cases hf
        · rfl
    · intro i pci hpci hsi hne
      rcases hcases i pci hpci with ⟨-, hf⟩ | ⟨-, hconn⟩
      · rw [hsi] at hf
        cases hf
      · exact absurd hconn hne
    · intro i pci hpci
      rcases hcases i pci hpci with ⟨hpc, -⟩ | ⟨-, rfl⟩
      · exact hi.lucky i pci hpc
      · rfl
  | proc k => exact hi.procStep hheld (procStep_cases hs)
  | giveUp k => exact hok.elim
  | client | accept k =>
    obtain ⟨-, hs⟩ := Option.ite_none_right_eq_some.mp hs
    obtain rfl := Option.some.inj hs
    exact hi
  | shutdown k =>
    obtain ⟨hpc, hs⟩ := Option.ite_none_right_eq_some.mp hs
    obtain rfl := Option.some.inj hs
    exact hi.move hpc rfl (fun h => nomatch h) (fun h => nomatch h) (Or.inr ⟨fun _ => rfl, fun _ => rfl⟩)
  | kill k =>
    obtain ⟨⟨hk, -⟩, hs⟩ := Option.ite_none_right_eq_some.mp hs
    obtain rfl := Option.some.inj hs
    exact hi.move (s := s) (List.getElem?_eq_getElem hk) rfl (fun h => nomatch h) (fun h => nomatch h)
      (Or.inr ⟨nofun, nofun⟩)

def Pc.rank : Pc → Nat
  | .connecting => 7
  | .forking => 6
  | .bindLazy => 5
  | .listenLazy => 4
  | .bindImmd _ => 3
  | .listenImmd _ => 2
  | .testing _ _ => 1
  | _ => 0

/-- The process waits at the second port, which has no room for its connection. -/
def State.Waits (room : Nat) (s : State) (k : Nat) : Prop :=
  s.procs[k]? = some .connecting ∧ s.immd ≠ none ∧ room ≤ s.queue

theorem exists_procStep (hpc : s.procs[k]? = some pc) (hstart : pc.starting = true) (hnot : ¬s.Waits room k) :
    ∃ t, procStep room s k = some t := by
  cases pc <;> try cases hstart
  all_goals simp only [procStep, hpc, Option.bind_eq_bind, Option.bind_some]
  case connecting =>
    split
    · rename_i himmd
      refine ⟨_, if_pos ?_⟩
      by_contra hfull
      exact hnot ⟨hpc, Option.isSome_iff_ne_none.mp himmd, Nat.not_lt.mp hfull⟩
    · exact ⟨_, rfl⟩
  case forking => exact ⟨_, rfl⟩
  all_goals split <;> exact ⟨_, rfl⟩

/-- A process on its way comes nearer to its end with every step of its own. -/
theorem ProcStep.rank_lt (h : ProcStep room s k t) (hpc : s.procs[k]? = some pc) (hstart : pc.starting = true) :
    ∃ pc', t.procs[k]? = some pc' ∧ pc'.rank < pc.rank ∧
      (pc'.starting = true ∨ pc' = .serving ∨ pc' = .told ∨ pc'.lucky = false) := by
  have hmove : ∀ {pc₀ pc₁ : Pc}, s.procs[k]? = some pc₀ → (s.move k pc₁).procs[k]? = some pc₁ := fun h₀ =>
    (getElem?_move h₀).trans (if_pos rfl)
  cases h with
  | told h₀ _ _ | fork h₀ _ | child h₀ | lazyBound h₀ _ | bindLazy h₀ _ | lazyTaken h₀ _ | listenLazy h₀ _
  | immdBound h₀ _ | bindImmd h₀ _ | immdTaken h₀ _ | listenImmd h₀ _ | serve h₀ | stuck h₀ _ =>
    obtain rfl := Option.some.inj (h₀.symm.trans hpc)
    exact ⟨_, hmove h₀, by simp [Pc.rank], by simp [Pc.starting, Pc.lucky]⟩
  | closeLazy h₀ | closeImmd h₀ =>
    obtain rfl := Option.some.inj (h₀.symm.trans hpc)
    cases hstart

def Pc.rankOf (s : State) (k : Nat) : Nat := (s.procs[k]?.map Pc.rank).getD 0

theorem canReach_end (hheld : Held s) (hsolo : Solo s.procs) (hpc : s.procs[k]? = some pc)
    (hstart : pc.starting = true) (hnot : ¬s.Waits room k) :
    (system room).CanReach (· = .proc k) (fun t => t.procs[k]? = some .serving ∨ t.procs[k]? = some .told) s := by
  refine System.CanReach.of_rank (fun s => Pc.rankOf s k)
    (I := fun s => Held s ∧ Solo s.procs ∧ ¬s.Waits room k ∧
      ∃ pc, s.procs[k]? = some pc ∧ (pc.starting = true ∨ pc = .serving ∨ pc = .told)) ?_
    ⟨hheld, hsolo, hnot, pc, hpc, Or.inl hstart⟩
  rintro s ⟨hheld, hsolo, hnot, pc, hpc, hstart | rfl | rfl⟩
  · right
    obtain ⟨t, ht⟩ := exists_procStep hpc hstart hnot
    have hstep := procStep_cases ht
    obtain ⟨pc', hpc', hlt, hend⟩ := hstep.rank_lt hpc hstart
    have hsolo' := hsolo.procStep hheld hstep
    -- behind its connect it waits for nobody
    have hnot' : ¬t.Waits room k := by
      rintro ⟨hconn, -⟩
      obtain rfl := Option.some.inj (hconn.symm.trans hpc')
      have hle : pc.rank ≤ 7 := by cases pc <;> simp [Pc.rank]
      exact absurd (Nat.lt_of_lt_of_le hlt hle) (Nat.lt_irrefl 7)
    refine ⟨.proc k, t, rfl, ht, ⟨hheld.procStep hstep, hsolo', hnot', pc', hpc', ?_⟩, ?_⟩
    · rcases hend with h | h | h | h
      · exact Or.inl h
      · exact Or.inr (Or.inl h)
      · exact Or.inr (Or.inr h)
      · rw [hsolo'.lucky k pc' hpc'] at h
        cases h
    · rw [Pc.rankOf, Pc.rankOf, hpc, hpc']
      exact hlt
  · exact Or.inl (Or.inl hpc)
  · exact Or.inl (Or.inr hpc)

end

section
variable {room n : Nat} {s t : State} {a : Act} {k j : Nat} {pc : Pc} {lazy immd : Bool}

theorem ProcStep.other (h : ProcStep room s k t) (hjk : j ≠ k) : t.procs[j]? = s.procs[j]? := by
  cases h <;> exact (getElem?_move ‹_›).trans (if_neg hjk)

/-- A process that is stuck stays so until it is killed. -/
theorem stuck_step (hstuck : s.procs[k]? = some (.stuck lazy immd)) (ha : a ≠ .kill k) (hs : step room s a = some t) :
    t.procs[k]? = some (.stuck lazy immd) := by
  cases a with
  | startup =>
    cases hs
    rw [List.getElem?_append_left (List.getElem?_eq_some_iff.mp hstuck).1]
    exact hstuck
  | proc j =>
    have hkj : k ≠ j := by
      rintro rfl
      rw [step, procStep, hstuck] at hs
      cases hs
    rw [(procStep_cases hs).other hkj]
    exact hstuck
  | giveUp j =>
    obtain ⟨⟨hpc, -⟩, hs⟩ := Option.ite_none_right_eq_some.mp hs
    obtain rfl := Option.some.inj hs
    have hkj : k ≠ j := by
      rintro rfl
      rw [hstuck] at hpc
      cases hpc
    rw [getElem?_move hpc, if_neg hkj]
    exact hstuck
  | client | accept j =>
    obtain ⟨-, hs⟩ := Option.ite_none_right_eq_some.mp hs
    obtain rfl := Option.some.inj hs
    exact hstuck
  | shutdown j =>
    obtain ⟨hserve, hs⟩ := Option.ite_none_right_eq_some.mp hs
    obtain rfl := Option.some.inj hs
    have hkj : k ≠ j := by
      rintro rfl
      rw [hstuck] at hserve
      cases hserve
    rw [getElem?_move hserve, if_neg hkj]
    exact hstuck
  | kill j =>
    obtain ⟨⟨hj, -⟩, hs⟩ := Option.ite_none_right_eq_some.mp hs
    obtain rfl := Option.some.inj hs
    rw [getElem?_move (s := s.release j) (List.getElem?_eq_getElem hj), if_neg fun hkj => ha (by rw [hkj])]
    exact hstuck

/-- A process that started late, while the second port was taken, and that does not give up, does not come past
    its connect. -/
def Pc.refused : Pc → Bool
  | .connecting | .told | .gone => true
  | _ => false

/-- A process is left with a port. -/
structure Jam (k : Nat) (lazy immd : Bool) (s : State) : Prop where
  held : Held s
  stuck : s.procs[k]? = some (.stuck lazy immd)

theorem Jam.step (h : Jam k lazy immd s) (ha : a ≠ .kill k) (hs : Startup.step room s a = some t) :
    Jam k lazy immd t where
  held := h.held.step hs
  stuck := stuck_step h.stuck ha hs

/-- How many of the processes from number `n` on have said that the daemon is already started. -/
def State.told (n : Nat) (s : State) : Nat := (s.procs.drop n).countP (· = .told)

end

end TgFocus.Startup
