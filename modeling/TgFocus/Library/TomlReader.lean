import TgFocus.Library.Strings
import TgFocus.Library.Toml

/-! A reader for the documents that consist of sections of one array of tables, byte by byte. It refuses
    every other document, and reads the ones it takes as TOML 1.0 says (`conforms`). -/

namespace Toml.Reader

abbrev Entries := List (List UInt8 × List (List UInt8))

/-- What the reader expects next: a line; the byte `c` and the bytes `lit`, then `next`; more of a key;
    the first string of an array or its end; a string; more of a string; an escape sequence; what
    follows a string. -/
inductive Mode where
  | line
  | expect (c : UInt8) (lit : List UInt8) (next : Mode)
  | key (acc : List UInt8)
  | first
  | item
  | str (acc : List UInt8)
  | esc (acc : List UInt8)
  | after
  deriving DecidableEq

/-- The finished tables, the table under the last header, and the array that is being read. -/
structure St where
  done : List Entries
  cur : Option Entries
  open? : Option (List UInt8 × List (List UInt8))
  mode : Mode
  deriving DecidableEq

def init : St := { done := [], cur := none, open? := none, mode := .line }

def St.tables (st : St) : List Entries := st.done ++ (st.cur.map (· ++ st.open?.toList)).toList

def headerRest (name : List UInt8) : List UInt8 := 0x5b :: name ++ [0x5d, 0x5d, 0x0a]

def step (name : List UInt8) (st : St) (b : UInt8) : Option St :=
  match st.mode with
  | .line =>
    if b = 0x0a then
      some { done := st.tables, cur := some [], open? := none, mode := .expect 0x5b (headerRest name) .line }
    else if bareChar b ∧ st.cur.isSome then some { st with mode := .key [b] }
    else none
  | .expect c lit next =>
    if b = c then
      match lit with
      | [] => some { st with mode := next }
      | d :: lit => some { st with mode := .expect d lit next }
    else none
  | .key acc =>
    if bareChar b then some { st with mode := .key (acc ++ [b]) }
    else if b = 0x20 then
      some { st with cur := st.cur.map (· ++ st.open?.toList), open? := some (acc, []),
                     mode := .expect 0x3d [0x20, 0x5b] .first }
    else none
  | .first =>
    if b = quote then some { st with mode := .str [] }
    else if b = 0x5d then some { st with mode := .expect 0x0a [] .line }
    else none
  | .item => if b = quote then some { st with mode := .str [] } else none
  | .str acc =>
    if b = quote then some { st with open? := st.open?.map fun kv => (kv.1, kv.2 ++ [acc]), mode := .after }
    else if b = backslash then some { st with mode := .esc acc }
    else if Unescaped b then some { st with mode := .str (acc ++ [b]) }
    else none
  | .esc acc => (shortEscape b).map fun v => { st with mode := .str (acc ++ [v]) }
  | .after =>
    if b = 0x2c then some { st with mode := .expect 0x20 [] .item }
    else if b = 0x5d then some { st with mode := .expect 0x0a [] .line }
    else none

def run (name : List UInt8) : St → List UInt8 → Option St
  | st, [] => some st
  | st, b :: t => (step name st b).bind fun st' => run name st' t

def St.value (name : List UInt8) (st : St) : Value :=
  if st.tables = [] then .table [] else .table [(name, .array (st.tables.map tableOf))]

def parse (name text : List UInt8) : Option Value :=
  if Utf8.Valid text then
    match run name init text with
    | some st => if st.mode = .line then some (st.value name) else none
    | none => none
  else none

/-! ### Reading what a section writes -/

section Reading
variable {name : List UInt8} {st st' : St} {a s t acc body : List UInt8} {b c : UInt8}

theorem run_expect {lit : List UInt8} {next : Mode} (hst : st.mode = .expect c lit next) :
    run name st (c :: lit ++ t) = run name { st with mode := next } t := by
  induction lit generalizing c st with
  | nil => simp [run, step, hst]
  | cons d lit ih =>
    rw [List.cons_append, run]
    simp only [step, hst, ↓reduceIte, Option.bind_some]
    exact ih rfl

theorem run_key (ha : ∀ b ∈ a, bareChar b = true) (hst : st.mode = .key acc) :
    run name st (a ++ t) = run name { st with mode := .key (acc ++ a) } t := by
  induction a generalizing acc st with
  | nil => simp [← hst]
  | cons b a ih =>
    have hb := ha b List.mem_cons_self
    rw [List.cons_append, run]
    simp only [step, hst, hb, ↓reduceIte, Option.bind_some]
    rw [ih (fun c hc => ha c (List.mem_cons_of_mem b hc)) rfl]
    simp

theorem run_comma (hst : st.mode = .after) : run name st (comma ++ t) = run name { st with mode := .item } t := by
  simp [comma, run, step, hst]

theorem run_closing (hst : st.mode = .first ∨ st.mode = .after) :
    run name st (closing ++ t) = run name { st with mode := .line } t := by
  rcases hst with hst | hst <;> simp [closing, run, step, hst, show ¬(0x5d : UInt8) = quote by decide]

/-- Reading the text of a string up to its quotation mark appends what it spells. -/
theorem run_body (h : Body ShortEscape body s) (hst : st.mode = .str acc) :
    run name st (body ++ quote :: t) =
      run name { st with open? := st.open?.map fun kv => (kv.1, kv.2 ++ [acc ++ s]), mode := .after } t := by
  induction h generalizing acc st with
  | nil => simp [run, step, hst]
  | @plain b body s hb h ih =>
    obtain ⟨hq, hbs, -⟩ := id hb
    rw [List.cons_append, run]
    simp only [step, hst, hq, hbs, hb, ↓reduceIte, Option.bind_some]
    rw [ih rfl]
    simp
  | @escape e v body s he h ih =>
    obtain ⟨he⟩ := he
    simp only [List.cons_append, List.nil_append, run, step, hst, he, Option.map_some]
    simp only [show backslash ≠ quote by decide, ↓reduceIte, Option.bind_some]
    rw [ih rfl]
    simp

theorem run_quote (hst : st.mode = .first ∨ st.mode = .item) :
    run name st (quote :: t) = run name { st with mode := .str [] } t := by
  rcases hst with hst | hst <;> simp [run, step, hst]

theorem run_item {i : Item} (hst : st.mode = .first ∨ st.mode = .item) {k : List UInt8}
    {vs : List (List UInt8)} (ho : st.open? = some (k, vs)) :
    run name st (i.text ++ t) = run name { st with open? := some (k, vs ++ [i.value]), mode := .after } t := by
  rw [Item.text, List.append_assoc, List.cons_append, run_quote hst, List.singleton_append,
    run_body i.spells rfl]
  simp [ho]

/-- Strings that are each followed by a comma, and the quotation mark of the next one. -/
theorem run_items_comma {items : List Item} (hst : st.mode = .first ∨ st.mode = .item) {k : List UInt8}
    {vs : List (List UInt8)} (ho : st.open? = some (k, vs)) :
    run name st (items.flatMap (fun i => i.text ++ comma) ++ quote :: t) =
      run name { st with open? := some (k, vs ++ items.map Item.value), mode := .str [] } t := by
  induction items generalizing st vs with
  | nil => simp [run_quote hst, ho]
  | cons i items ih =>
    rw [List.flatMap_cons, List.append_assoc, List.append_assoc, run_item hst ho, run_comma rfl,
      ih (Or.inr rfl) rfl]
    simp

theorem run_after {items : List Item} {k : List UInt8} {vs : List (List UInt8)} (ho : st.open? = some (k, vs))
    (hst : st.mode = .after) :
    run name st (items.flatMap (fun i => comma ++ i.text) ++ (closing ++ t)) =
      run name { st with open? := some (k, vs ++ items.map Item.value), mode := .line } t := by
  induction items generalizing st vs with
  | nil => simp [run_closing (Or.inr hst), ho]
  | cons i items ih =>
    rw [List.flatMap_cons, List.append_assoc, List.append_assoc, run_comma hst,
      run_item (show St.mode { st with mode := .item } = .first ∨ _ from Or.inr rfl) ho, ih rfl rfl]
    simp

theorem run_array {items : List Item} {k : List UInt8} (ho : st.open? = some (k, [])) (hst : st.mode = .first) :
    run name st (comma.intercalate (items.map Item.text) ++ (closing ++ t)) =
      run name { st with open? := some (k, items.map Item.value), mode := .line } t := by
  cases items with
  | nil => simp [List.intercalate, run_closing (Or.inl hst), ho]
  | cons i items =>
    rw [List.map_cons, Strings.intercalate_cons, List.append_assoc, run_item (Or.inl hst) ho, List.flatMap_map,
      run_after rfl rfl]
    simp

theorem run_opening {key : List UInt8} (hk : BareKey key) {c : Entries} (hc : st.cur = some c)
    (hst : st.mode = .line) :
    run name st (key ++ (opening ++ t)) =
      run name { st with cur := some (c ++ st.open?.toList), open? := some (key, []), mode := .first } t := by
  obtain ⟨hne, hbare⟩ := hk
  cases key with
  | nil => exact absurd rfl hne
  | cons b key =>
    have hb := hbare b List.mem_cons_self
    have hnl : b ≠ 0x0a := by rintro rfl; exact absurd hb (by decide)
    rw [List.cons_append, run]
    simp only [step, hst, hnl, hb, hc, ↓reduceIte, Option.isSome_some, and_self, Option.bind_some]
    rw [run_key (fun d hd => hbare d (List.mem_cons_of_mem b hd)) rfl]
    simp [opening, run, step, show bareChar 0x20 = false by decide]

theorem run_line {l : Line} {c : Entries} (hc : st.cur = some c) (hst : st.mode = .line) :
    run name st (l.text ++ t) =
      run name { st with cur := some (c ++ st.open?.toList), open? := some l.entry, mode := .line } t := by
  simp only [Line.text, List.append_assoc]
  rw [run_opening l.bare hc hst, run_array rfl rfl]
  rfl

theorem run_lines (name t : List UInt8) (ls : List Line) (st : St) {c : Entries} (hc : st.cur = some c)
    (hst : st.mode = .line) :
    ∃ c' o, run name st (ls.flatMap Line.text ++ t) =
      run name { st with cur := some c', open? := o, mode := .line } t ∧
      c' ++ o.toList = c ++ st.open?.toList ++ ls.map Line.entry := by
  induction ls generalizing st c with
  | nil =>
    refine ⟨c, st.open?, ?_, by simp⟩
    rw [← hc, ← hst]
    rfl
  | cons l ls ih =>
    obtain ⟨c', o, hrun, heq⟩ :=
      ih { st with cur := some (c ++ st.open?.toList), open? := some l.entry, mode := .line } rfl rfl
    refine ⟨c', o, ?_, by simpa using heq⟩
    rw [List.flatMap_cons, List.append_assoc, run_line hc hst, hrun]

theorem run_section (name t : List UInt8) (s : Section) (hst : st.mode = .line) :
    ∃ c o, run name st (s.text name ++ t) =
      run name { done := st.tables, cur := some c, open? := o, mode := .line } t ∧ c ++ o.toList = s.entries := by
  obtain ⟨c, o, hrun, heq⟩ := run_lines name t s.lines
    { done := st.tables, cur := some [], open? := none, mode := .line } rfl rfl
  refine ⟨c, o, ?_, by simpa [Section.entries] using heq⟩
  rw [← hrun, Section.text, header, List.append_assoc, List.cons_append, List.cons_append, run.eq_def]
  simp only [step, hst, ↓reduceIte, Option.bind_some]
  exact run_expect rfl

theorem run_text (name t : List UInt8) (ss : List Section) (st : St) (hst : st.mode = .line) :
    ∃ st', run name st (text name ss ++ t) = run name st' t ∧ st'.mode = .line ∧
      st'.tables = st.tables ++ ss.map Section.entries := by
  induction ss generalizing st with
  | nil => exact ⟨st, rfl, hst, by simp⟩
  | cons s ss ih =>
    obtain ⟨c, o, hrun, heq⟩ := run_section name (text name ss ++ t) s hst
    obtain ⟨st', hrun', hm, ht⟩ := ih { done := st.tables, cur := some c, open? := o, mode := .line } rfl
    refine ⟨st', ?_, hm, ?_⟩
    · rw [text, List.flatMap_cons, List.append_assoc, ← text, hrun, hrun']
    · rw [ht]
      simp [St.tables, heq]

end Reading

/-! ### What an accepted rest keeps -/

section Keeping
variable {name : List UInt8} {st st' : St} {t acc : List UInt8} {b : UInt8} {i j : Nat} {key str : List UInt8}

/-- The string `j` under `key` in the table `i` is `str`. -/
def Has (ts : List Entries) (i : Nat) (key : List UInt8) (j : Nat) (str : List UInt8) : Prop :=
  ∃ kvs vs, ts[i]? = some kvs ∧ kvs.lookup key = some vs ∧ vs[j]? = some str

theorem Has.append {ts us : List Entries} (h : Has ts i key j str) : Has (ts ++ us) i key j str := by
  obtain ⟨kvs, vs, hi, hk, hj⟩ := h
  exact ⟨kvs, vs, by rw [List.getElem?_append_left (List.getElem?_eq_some_iff.mp hi).1, hi], hk, hj⟩

theorem Has.last {ts : List Entries} {a a' : Entries} (h : Has (ts ++ [a]) i key j str)
    (ha : ∀ vs, a.lookup key = some vs → vs[j]? = some str →
      ∃ vs', a'.lookup key = some vs' ∧ vs'[j]? = some str) : Has (ts ++ [a']) i key j str := by
  obtain ⟨kvs, vs, hi, hk, hj⟩ := h
  by_cases hlt : i < ts.length
  · rw [List.getElem?_append_left hlt] at hi
    exact ⟨kvs, vs, by rw [List.getElem?_append_left hlt, hi], hk, hj⟩
  · rw [List.getElem?_append_right (by omega), List.getElem?_singleton] at hi
    split at hi
    · rename_i h0
      obtain rfl := Option.some.inj hi
      obtain ⟨vs', hk', hj'⟩ := ha vs hk hj
      exact ⟨a', vs', by rw [List.getElem?_append_right (by omega), List.getElem?_singleton, if_pos h0], hk', hj'⟩
    · cases hi

theorem lookup_append_left {a c : Entries} {vs : List (List UInt8)} (h : a.lookup key = some vs) :
    (a ++ c).lookup key = some vs := by
  rw [List.lookup_append, h, Option.some_or]

theorem lookup_push {c : Entries} {k s : List UInt8} {ws vs : List (List UInt8)}
    (h : (c ++ [(k, ws)]).lookup key = some vs) (hj : vs[j]? = some str) :
    ∃ vs', (c ++ [(k, ws ++ [s])]).lookup key = some vs' ∧ vs'[j]? = some str := by
  cases hc : c.lookup key with
  | some us =>
    rw [lookup_append_left hc] at h
    obtain rfl := Option.some.inj h
    exact ⟨us, lookup_append_left hc, hj⟩
  | none =>
    rw [List.lookup_append, hc, Option.none_or, List.lookup_cons] at h
    rw [List.lookup_append, hc, Option.none_or, List.lookup_cons]
    split at h
    · obtain rfl := Option.some.inj h
      exact ⟨ws ++ [s], rfl, by rw [List.getElem?_append_left (List.getElem?_eq_some_iff.mp hj).1, hj]⟩
    · cases h

theorem step_has (h : Has st.tables i key j str) (hs : step name st b = some st') :
    Has st'.tables i key j str := by
  obtain ⟨done, cur, o, mode⟩ := st
  cases mode with
  | line =>
    simp only [step] at hs
    split at hs
    · obtain rfl := Option.some.inj hs
      exact h.append
    · split at hs
      · obtain rfl := Option.some.inj hs
        exact h
      · cases hs
  | expect c lit next =>
    simp only [step] at hs
    split at hs
    · cases lit <;> (obtain rfl := Option.some.inj hs; exact h)
    · cases hs
  | key acc =>
    simp only [step] at hs
    split at hs
    · obtain rfl := Option.some.inj hs
      exact h
    · split at hs
      · obtain rfl := Option.some.inj hs
        cases cur with
        | none => exact h
        | some c => exact h.last fun vs hk hj => ⟨vs, lookup_append_left hk, hj⟩
      · cases hs
  | first | item =>
    simp only [step] at hs
    repeat' split at hs
    all_goals first | (obtain rfl := Option.some.inj hs; exact h) | cases hs
  | str acc =>
    simp only [step] at hs
    split at hs
    · obtain rfl := Option.some.inj hs
      cases cur with
      | none => exact h
      | some c =>
        cases o with
        | none => exact h
        | some kv => exact h.last fun vs hk hj => lookup_push hk hj
    · split at hs
      · obtain rfl := Option.some.inj hs
        exact h
      · split at hs
        · obtain rfl := Option.some.inj hs
          exact h
        · cases hs
  | esc acc =>
    obtain ⟨v, -, rfl⟩ := Option.map_eq_some_iff.mp hs
    exact h
  | after =>
    simp only [step] at hs
    repeat' split at hs
    all_goals first | (obtain rfl := Option.some.inj hs; exact h) | cases hs

theorem run_has (h : Has st.tables i key j str) (hr : run name st t = some st') : Has st'.tables i key j str := by
  induction t generalizing st with
  | nil =>
    obtain rfl := Option.some.inj hr
    exact h
  | cons b t ih =>
    obtain ⟨u, hu, hr⟩ := Option.bind_eq_some_iff.mp hr
    exact ih (step_has h hu) hr

/-- A run that leaves a string has read its text and the quotation mark that ends it. -/
theorem run_str_inv (hst : st.mode = .str acc) (hr : run name st t = some st') (hm : st'.mode = .line) :
    ∃ body r s, t = body ++ quote :: r ∧ Body ShortEscape body s ∧
      run name { st with open? := st.open?.map fun kv => (kv.1, kv.2 ++ [acc ++ s]), mode := .after } r =
        some st' := by
  induction hn : t.length using Nat.strongRecOn generalizing t acc st with
  | _ n ih =>
    cases t with
    | nil =>
      obtain rfl := Option.some.inj hr
      rw [hst] at hm
      cases hm
    | cons b t =>
      obtain ⟨u, hu, hr⟩ := Option.bind_eq_some_iff.mp hr
      simp only [step, hst] at hu
      split at hu
      · rename_i hb
        obtain rfl := Option.some.inj hu
        exact ⟨[], t, [], by rw [hb]; rfl, .nil, by simpa using hr⟩
      · split at hu
        · rename_i hb
          obtain rfl := Option.some.inj hu
          cases t with
          | nil =>
            obtain rfl := Option.some.inj hr
            cases hm
          | cons e t =>
            obtain ⟨u, hu, hr⟩ := Option.bind_eq_some_iff.mp hr
            obtain ⟨v, hv, rfl⟩ := Option.map_eq_some_iff.mp hu
            obtain ⟨body, r, s, rfl, hbody, hrun⟩ := ih t.length (by simp only [← hn, List.length_cons]; omega) rfl hr rfl
            refine ⟨b :: e :: body, r, v :: s, rfl, ?_, by simpa using hrun⟩
            subst hb
            exact Body.escape (e := [e]) (v := [v]) (.intro hv) hbody
        · split at hu
          · rename_i hb
            obtain rfl := Option.some.inj hu
            obtain ⟨body, r, s, rfl, hbody, hrun⟩ := ih t.length (by rw [← hn]; simp) rfl hr rfl
            exact ⟨b :: body, r, b :: s, rfl, hbody.plain hb, by simpa using hrun⟩
          · cases hu

end Keeping

/-! ### Conformance -/

section Conformance
variable {name text : List UInt8} {v : Value}

theorem ShortEscape.escape {e v : List UInt8} (h : ShortEscape e v) : Escape e v := by
  obtain ⟨h⟩ := h
  exact .short h

theorem body_escape {body s : List UInt8} (h : Body ShortEscape body s) : Body Escape body s := by
  induction h with
  | nil => exact .nil
  | plain hb _ ih => exact ih.plain hb
  | escape he _ ih => exact ih.escape (ShortEscape.escape he)

/-- A string that is closed and followed by no quotation mark does not look like a multi-line one. -/
theorem not_quotes_of_body {body r s : List UInt8} (h : Body ShortEscape body s) (hr : ∀ r', r ≠ quote :: r') :
    ¬[quote, quote] <+: body ++ quote :: r := by
  intro hq
  cases h with
  | nil =>
    obtain ⟨u, hu⟩ := hq
    cases r with
    | nil => simp at hu
    | cons c r =>
      simp only [List.nil_append, List.cons_append, List.cons.injEq, true_and] at hu
      exact hr r (by rw [hu.1])
  | plain hb => exact hb.1 (List.cons_prefix_cons.mp hq).1.symm
  | escape => exact absurd (List.cons_prefix_cons.mp hq).1 (by decide)

theorem parse_eq_some_iff :
    parse name text = some v ↔
      Utf8.Valid text ∧ ∃ st, run name init text = some st ∧ st.mode = .line ∧ st.value name = v := by
  unfold parse
  split
  · rename_i hv
    cases run name init text with
    | none => simp
    | some st => by_cases hm : st.mode = .line <;> simp [hv, hm]
  · rename_i hv
    simp [hv]

theorem lookup_map_table {kvs : Entries} {key : List UInt8} {vs : List (List UInt8)}
    (h : kvs.lookup key = some vs) : (tableOf kvs).get? key = some (.array (vs.map .string)) := by
  simp only [tableOf, Value.get?]
  induction kvs with
  | nil => cases h
  | cons kv kvs ih =>
    rw [List.lookup_cons] at h
    rw [List.map_cons, List.lookup_cons]
    cases hk : key == kv.1 with
    | true =>
      rw [hk] at h
      obtain rfl := Option.some.inj h
      rfl
    | false =>
      rw [hk] at h
      exact ih h

theorem elementAt_of_has {st : St} {i j : Nat} {key str : List UInt8} (h : Has st.tables i key j str) :
    elementAt name i key j (st.value name) = some (.string str) := by
  obtain ⟨kvs, vs, hi, hk, hj⟩ := h
  have hne : st.tables ≠ [] := fun h0 => by simp [h0] at hi
  have htop : (st.value name).get? name = some (.array (st.tables.map tableOf)) := by
    simp only [St.value, hne, ↓reduceIte, Value.get?, List.lookup_cons_self]
  simp [elementAt, htop, Value.elems?, hi, lookup_map_table hk, hj]

/-- Where a string begins, an accepted document has the string that is spelled there. -/
theorem position {ss : List Section} {s : Section} {key : List UInt8} {items : List Item} {rest : List UInt8}
    (hkey : BareKey key) (hfresh : key ∉ s.lines.map Line.key)
    (h : parse name (Toml.text name ss ++ s.text name ++ key ++ opening ++
      items.flatMap (fun i => i.text ++ comma) ++ quote :: rest) = some v) :
    ∃ str, Spells rest str ∧ elementAt name ss.length key items.length v = some (.string str) := by
  obtain ⟨-, st, hrun, hm, rfl⟩ := parse_eq_some_iff.mp h
  simp only [List.append_assoc] at hrun
  obtain ⟨st₀, hrun₀, hm₀, ht₀⟩ := run_text name (s.text name ++ (key ++ (opening ++
    (items.flatMap (fun i => i.text ++ comma) ++ quote :: rest)))) ss init rfl
  obtain ⟨c, o, hrun₁, heq⟩ := run_section name (key ++ (opening ++
    (items.flatMap (fun i => i.text ++ comma) ++ quote :: rest))) s hm₀
  rw [hrun₀, hrun₁, run_opening hkey rfl rfl, run_items_comma (Or.inl rfl) rfl] at hrun
  obtain ⟨body, r, str, rfl, hbody, hrun⟩ := run_str_inv rfl hrun hm
  refine ⟨str, .basic (not_quotes_of_body hbody ?_) (body_escape hbody), elementAt_of_has (run_has ?_ hrun)⟩
  · rintro r' rfl
    simp [run, step, show quote ≠ 0x2c by decide, show quote ≠ 0x5d by decide] at hrun
  · have hlen : ss.length = st₀.tables.length := by
      rw [ht₀, List.length_append, List.length_map]
      exact (Nat.zero_add _).symm
    refine ⟨c ++ o.toList ++ [(key, items.map Item.value ++ [str])], items.map Item.value ++ [str], ?_, ?_, ?_⟩
    · simp [St.tables, hlen]
    · have hnone : (c ++ o.toList).lookup key = none := by
        rw [heq, List.lookup_eq_none_iff]
        intro kv hkv
        obtain ⟨l, hl, rfl⟩ := List.mem_map.mp hkv
        simp only [Line.entry, bne_iff_ne, ne_eq]
        rintro rfl
        exact hfresh (List.mem_map.mpr ⟨l, hl, rfl⟩)
      rw [List.lookup_append, hnone, Option.none_or, List.lookup_cons_self]
    · rw [List.getElem?_append_right (by simp)]
      simp

/-- The reader reads the documents of its array of tables as TOML 1.0 says. -/
theorem conforms (name : List UInt8) : Conforms name (parse name) where
  utf8 h := (parse_eq_some_iff.mp h).1
  empty := by
    rw [parse_eq_some_iff]
    exact ⟨rfl, init, rfl, rfl, rfl⟩
  accepts {ss} hne hv := by
    rw [parse_eq_some_iff]
    obtain ⟨st, hrun, hm, ht⟩ := run_text name [] ss init rfl
    rw [List.append_nil] at hrun
    have ht' : st.tables = ss.map Section.entries := by simpa [init, St.tables] using ht
    refine ⟨hv, st, hrun, hm, ?_⟩
    simp [St.value, ht', hne, List.map_map, Function.comp_def]
  position := position

end Conformance

end Toml.Reader
