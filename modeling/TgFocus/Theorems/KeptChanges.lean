import TgFocus.FilterSessions
import TgFocus.Theorems.Edits
import TgFocus.Theorems.FilterStore

/-! Changes of the filters by two programs. Each stores a text that it made of the text it had read: what
    was stored in between is overwritten. A change lasts when every change is stored over the text that it
    was made of. -/

namespace TgFocus.FilterSessions
open Transition

/-- The change that an action stores. -/
def State.change? (s : State) : Act → Option Change
  | .store =>
    match s.daemon with
    | .storing c => some c
    | .idle => none
  | .cli _ =>
    match s.cli with
    | .saving c => some c
    | _ => none
  | .command _ _ => none

/-- A change is stored over the text that it was made of, and what is stored is what was made: it is not
    empty, the lock can be taken and the file written, and the CLI reads back what the user left. -/
def StoresFresh (s : State) (a : Act) : Prop :=
  ∀ c ∈ s.change? a, s.userdata.filters = c.read ∧
    (c.made ≠ [] ∧ s.userdata.lckFilters = true ∧ s.userdata.writable = true) ∧
    (a ≠ .store → getFiltersTmp c.made = c.made)

instance (s : State) (a : Act) : Decidable (StoresFresh s a) := inferInstanceAs (Decidable (∀ c ∈ s.change? a, _))

/-- What a successful change brought about is still there, when no later change undid it. -/
def Kept (s : State) : Prop :=
  ∀ (P : Bytes → Prop) (before after : List Change) (c : Change), s.acked = before ++ c :: after → P c.made →
    (∀ d ∈ after, P d.read → P d.made) → P s.userdata.filters

section
variable {host : Host} {s t : State} {a : Act}

/-- A change that is stored over the text that it was made of undoes nothing but what it undoes itself. -/
theorem Kept.stored (hk : Kept s) {c : Change} (hread : s.userdata.filters = c.read)
    (hacked : t.acked = s.acked ++ [c]) (hfile : t.userdata.filters = c.made) : Kept t := by
  intro P before after c' hsplit hc' hafter
  rw [hfile]
  rw [hacked] at hsplit
  rcases List.eq_nil_or_concat after with rfl | ⟨after, d, rfl⟩
  · obtain ⟨-, hlast⟩ := List.append_inj' hsplit rfl
    obtain rfl : c = c' := by simpa using hlast
    exact hc'
  · rw [List.concat_eq_append, ← List.cons_append, ← List.append_assoc] at hsplit
    obtain ⟨hbefore, hlast⟩ := List.append_inj' hsplit rfl
    obtain rfl : c = d := by simpa using hlast
    refine hafter c (by simp) ?_
    rw [← hread]
    exact hk P before after c' hbefore hc' fun d hd => hafter d (by simp [hd])

theorem filters_setFilters_of {u : UserData} {text : Bytes}
    (h : text ≠ [] ∧ u.lckFilters = true ∧ u.writable = true) : (u.setFilters text).filters = text := by
  simp [UserData.setFilters, h.1, h.2.1, h.2.2]

theorem Kept.step (hk : Kept s) (hok : StoresFresh s a) (hs : step host s a = some t) : Kept t := by
  cases a with
  | command typ ipt =>
    simp only [FilterSessions.step, commandStep] at hs
    split at hs
    · obtain ⟨⟨res, st⟩, -, hs⟩ := Option.bind_eq_some_iff.mp hs
      dsimp only at hs
      split at hs <;> cases hs <;> exact hk
    · cases hs
  | store =>
    simp only [FilterSessions.step, storeStep] at hs
    split at hs <;> rename_i hpc
    · cases hs
    · rename_i c
      obtain ⟨hread, hstores, -⟩ := hok c (by simp [State.change?, hpc])
      cases hs
      exact hk.stored hread rfl (filters_setFilters_of hstores)
  | cli tmp =>
    simp only [FilterSessions.step, cliStep] at hs
    split at hs <;> rename_i hpc
    · cases hs
      exact hk
    · cases hs
      exact hk
    · split at hs <;> cases hs <;> exact hk
    · rename_i c
      obtain ⟨hread, hstores, htmp⟩ := hok c (by simp [State.change?, hpc])
      cases hs
      rw [← htmp (by simp)] at hstores
      exact hk.stored hread rfl ((filters_setFilters_of hstores).trans (htmp (by simp)))

/-- In runs in which every change is stored over the text that it was made of, what a successful change
    brought about is still there, when no later change undid it. -/
theorem changes_kept (h : (system host).ReachableBy StoresFresh s) (P : Bytes → Prop) (before after : List Change)
    (c : Change) (hacked : s.acked = before ++ c :: after) (hc : P c.made)
    (hafter : ∀ d ∈ after, P d.read → P d.made) : P s.userdata.filters := by
  have hinv : Kept s := by
    refine h.invariant ?_ fun s a t hk hok hs => hk.step hok hs
    rintro s ⟨userdata, rfl⟩
    intro P before after c hsplit
    cases before <;> cases hsplit
  exact hinv P before after c hacked hc hafter

/-- A command that is stored at once does what `ChatCmdHandler` does. -/
theorem command_at_once {typ : ChatCmdType} {ipt : Bytes} {u : State} (hidle : s.daemon = .idle)
    (hs : commandStep host s typ ipt = some t) (hu : storeStep t = some u) :
    ∃ res st, ChatCmdHandler host typ ipt { userdata := s.userdata, pauseDoCsmMq := false } = some (res, st) ∧
      res.done = true ∧ st.userdata = u.userdata := by
  simp only [commandStep, hidle] at hs
  obtain ⟨⟨res, st⟩, hcmd, hs⟩ := Option.bind_eq_some_iff.mp hs
  dsimp only at hs
  split at hs
  · rename_i hedits
    obtain ⟨htyp, hdone⟩ := Bool.and_eq_true_iff.mp hedits
    cases hs
    cases hu
    rw [ChatCmdHandler] at hcmd
    obtain ⟨⟨res', st'⟩, hhandler, heq⟩ := Option.map_eq_some_iff.mp hcmd
    cases heq
    have hmem : typ ∈ [.editFilter, .insertFilter, .removeFilter] := by
      cases typ <;> first | decide | cases htyp
    obtain ⟨g', haccepted, rfl, hthere⟩ := handler_done hhandler hdone hmem
    refine ⟨_, _, by rw [ChatCmdHandler, hthere ⟨s.userdata, false⟩ getFilters_getFilters.symm]; rfl, hdone, ?_⟩
    have hstored := filters_setFilters_of (u := { filters := s.userdata.getFilters })
      ⟨asFsdata_ne_nil haccepted.ne_nil, rfl, rfl⟩
    dsimp only [Stat.store]
    rw [hstored]
  · cases hs
    simp [storeStep, hidle] at hu

end

/-! ### Runs -/

def someFilters : Bytes := str "\n[[focus-filter]]\n"

/-- A `filters` session of the CLI in which the user leaves a text. -/
def session (tmp : Bytes) : List Act := [.cli tmp, .cli tmp, .cli tmp, .cli tmp]

def insertFirst : List Act := [.command .insertFilter (str "filter.insert 1"), .store]

set_option maxRecDepth 10000 in
/-- A session, and then a command that inserts a filter: the keyword of the new filter is stored. -/
theorem changes_kept_run :
    ∃ s : State, ∃ c : Change, s.acked.getLast? = some c ∧ (Strings.find (str "tg-focus") c.made).isSome = true ∧
      (Strings.find (str "tg-focus") s.userdata.filters).isSome = true :=
  have h : (system .literal).ReachableBy StoresFresh _ :=
    .runBy (.init ⟨{ filters := str "-" }, rfl⟩) (session someFilters ++ insertFirst) rfl
  ⟨_, _, rfl, by decide +kernel, changes_kept h (fun text => (Strings.find (str "tg-focus") text).isSome = true)
    [_] [] _ rfl (by decide +kernel) (by simp)⟩

set_option maxRecDepth 10000 in
/-- A session copies the filters, a command that inserts a filter is answered with success, and the session
    saves what it copied. -/
theorem change_overwritten :
    ∃ (s : State) (P : Bytes → Prop) (before : List Change) (c : Change) (after : List Change),
      (system .literal).Reachable s ∧ s.acked = before ++ c :: after ∧ P c.made ∧
      (∀ d ∈ after, P d.read → P d.made) ∧ ¬P s.userdata.filters :=
  ⟨_, fun text => text ≠ someFilters, [], _, [_], Transition.System.Reachable.run (.init ⟨{ filters := someFilters }, rfl⟩)
    ([.cli []] ++ insertFirst ++ [.cli someFilters, .cli [], .cli []]) rfl, rfl, by decide +kernel,
    by decide +kernel, by decide +kernel⟩

end TgFocus.FilterSessions
