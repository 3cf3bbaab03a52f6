import TgFocus.Filter

/-! What a TOML parser makes of a pattern as `escape` writes it between quotation marks. `escape` doubles
    backslashes and leaves every other byte, so a pattern is read back exactly when its bytes may stand in
    a basic string: no quotation mark and no control character other than tab. -/

namespace TgFocus

open Toml (Body ShortEscape Escape MlBody Newline Blank Spells Unescaped)

section
variable {s x body t r u R e v : Bytes} {b c : UInt8}

/-! ### The escaped text -/

/-- A byte that a basic string can hold when backslashes are doubled. -/
def Keeps (b : UInt8) : Prop := Unescaped b ∨ b = Toml.backslash

instance (b : UInt8) : Decidable (Keeps b) := inferInstanceAs (Decidable (_ ∨ _))

instance (ptn : Bytes) : Decidable (∀ b ∈ ptn, Keeps b) := List.decidableBAll _ ptn

/-- A pattern that the stored form keeps. -/
def Storable (ptn : Bytes) : Prop := Utf8.Valid ptn ∧ ∀ b ∈ ptn, Keeps b

instance (ptn : Bytes) : Decidable (Storable ptn) := inferInstanceAs (Decidable (_ ∧ _))

theorem escape_cons_backslash : escape (Toml.backslash :: s) = Toml.backslash :: Toml.backslash :: escape s := rfl

theorem escape_cons_ne (h : b ≠ Toml.backslash) : escape (b :: s) = b :: escape s := if_neg h

/-- The escaped text of a pattern without forbidden bytes is a basic string that spells the pattern. -/
theorem body_escape (h : ∀ b ∈ s, Keeps b) : Body ShortEscape (escape s) s := by
  induction s with
  | nil => exact .nil
  | cons b s ih =>
    have ih := ih fun c hc => h c (List.mem_cons_of_mem b hc)
    rcases h b List.mem_cons_self with hb | rfl
    · rw [escape_cons_ne hb.2.1]
      exact .plain hb ih
    · exact .escape (.intro (show Toml.shortEscape Toml.backslash = some Toml.backslash from rfl)) ih

theorem run_escape {q : Utf8.State} : Utf8.run q (escape s) = Utf8.run q s := by
  induction s generalizing q with
  | nil => rfl
  | cons b s ih =>
    by_cases hb : b = Toml.backslash
    · subst hb
      by_cases hq : q = .start
      · subst hq
        simp only [escape_cons_backslash, Utf8.run, Utf8.step_start_ascii (b := Toml.backslash) (by decide),
          Option.bind_some, ih]
      · simp only [escape_cons_backslash, Utf8.run, Utf8.step_ascii_of_ne_start (b := Toml.backslash) hq (by decide),
          Option.bind_none]
    · simp only [escape_cons_ne hb, Utf8.run, ih]

theorem valid_escape_iff : Utf8.Valid (escape s) ↔ Utf8.Valid s := by
  rw [Utf8.Valid, Utf8.Valid, run_escape]

/-- The first byte of an escaped text and its closing quotation mark: the mark, or the first byte of the
    pattern, with a second one behind a backslash. -/
theorem escape_append_cases (h : b :: t = escape x ++ Toml.quote :: u) :
    (x = [] ∧ b = Toml.quote ∧ t = u) ∨
      ∃ x', x = b :: x' ∧ (b ≠ Toml.backslash ∧ t = escape x' ++ Toml.quote :: u ∨
        b = Toml.backslash ∧ t = Toml.backslash :: (escape x' ++ Toml.quote :: u)) := by
  cases x with
  | nil =>
    obtain ⟨rfl, rfl⟩ := List.cons.inj h
    exact Or.inl ⟨rfl, rfl, rfl⟩
  | cons d x =>
    by_cases hd : d = Toml.backslash
    · subst hd
      obtain ⟨rfl, rfl⟩ := List.cons.inj h
      exact Or.inr ⟨x, rfl, Or.inr ⟨rfl, rfl⟩⟩
    · rw [escape_cons_ne hd] at h
      obtain ⟨rfl, rfl⟩ := List.cons.inj h
      exact Or.inr ⟨x, rfl, Or.inl ⟨hd, rfl⟩⟩

theorem escape_eq_of_append_eq (he : Escape e v) (h : e ++ t = Toml.backslash :: r) :
    e = [Toml.backslash] ∧ v = [Toml.backslash] ∧ t = r := by
  cases he with
  | short hs =>
    obtain ⟨rfl, rfl⟩ := List.cons.inj h
    obtain rfl := Option.some.inj (hs.symm.trans (show Toml.shortEscape Toml.backslash = some Toml.backslash from rfl))
    exact ⟨rfl, rfl, rfl⟩
  | unicode => exact absurd (List.cons.inj h).1 (by decide)
  | unicodeLong => exact absurd (List.cons.inj h).1 (by decide)

/-- A basic string that spells the pattern it was written from holds no forbidden byte. -/
theorem keeps_of_body (h : Body Escape body s) (heq : body ++ Toml.quote :: r = escape s ++ Toml.quote :: R) :
    ∀ b ∈ s, Keeps b := by
  induction h with
  | nil => simp
  | @plain b t s hb _ ih =>
    rw [escape_cons_ne hb.2.1] at heq
    exact List.forall_mem_cons.mpr ⟨Or.inl hb, ih (List.cons.inj heq).2⟩
  | @escape e v t s he _ ih =>
    rw [List.cons_append, List.cons_append, List.append_assoc] at heq
    rcases escape_append_cases heq with ⟨-, hq, -⟩ | ⟨x', hx, ⟨hne, -⟩ | ⟨-, ht⟩⟩
    · exact absurd hq (by decide)
    · exact absurd rfl hne
    · obtain ⟨-, rfl, ht⟩ := escape_eq_of_append_eq he ht
      obtain rfl : s = x' := (List.cons.inj hx).2
      exact List.forall_mem_cons.mpr ⟨Or.inr rfl, ih ht⟩

/-! ### Multi-line strings

A pattern that starts with two quotation marks opens a multi-line string. Line endings apart, such a
string spells what is written, so it cannot spell the two marks that opened it as well. -/

def solid (b : UInt8) : Bool := b ≠ 0x0a && b ≠ 0x0d

@[simp] theorem solid_quote : solid Toml.quote = true := rfl

theorem newline_count_eq_zero (h : Newline s) : s.countP solid = 0 ∧ s.count Toml.quote = 0 := by
  cases h <;> decide

theorem newline_escape_cases {n : Bytes} (hn : Newline n) (h : n ++ t = escape x ++ Toml.quote :: u) :
    ∃ x', x = n ++ x' ∧ t = escape x' ++ Toml.quote :: u := by
  have step : ∀ {b t x}, (b = 0x0a ∨ b = 0x0d) → b :: t = escape x ++ Toml.quote :: u →
      ∃ x', x = b :: x' ∧ t = escape x' ++ Toml.quote :: u := by
    intro b t x hb heq
    rcases escape_append_cases heq with ⟨-, rfl, -⟩ | ⟨x', hx, ⟨-, ht⟩ | ⟨rfl, -⟩⟩
    · exact absurd hb (by decide)
    · exact ⟨x', hx, ht⟩
    · exact absurd hb (by decide)
  cases hn with
  | lf => exact step (by decide) h
  | crlf =>
    obtain ⟨x₁, rfl, h₁⟩ := step (by decide) h
    obtain ⟨x₂, rfl, h₂⟩ := step (by decide) h₁
    exact ⟨x₂, rfl, h₂⟩

theorem solid_of_unescaped (h : Unescaped b) : solid b = true := by
  by_contra hb
  have hb : b = 0x0a ∨ b = 0x0d := by
    simp only [solid, Bool.and_eq_true, decide_eq_true_eq] at hb
    tauto
  rcases hb with rfl | rfl <;> exact absurd h (by decide)

theorem count_quote_le_countP_solid : s.count Toml.quote ≤ s.countP solid := by
  rw [List.count]
  refine List.countP_mono_left fun b _ hb => ?_
  obtain rfl := eq_of_beq hb
  rfl

/-- A multi-line string that spells `s`, read from the escaped text of `x` and a closing mark, ends before
    the mark, with no more quotation marks than `x` has; or it spells `x`, line endings apart, and goes on
    behind the mark. Behind the mark comes `u`, behind the string `r`. -/
def EndsIn (s x r u : Bytes) : Prop :=
  s.count Toml.quote ≤ x.count Toml.quote ∨
    ∃ s₁ s₂ body₂, body₂ ++ r = u ∧ MlBody body₂ s₂ ∧ s = s₁ ++ Toml.quote :: s₂ ∧
      s₁.countP solid = x.countP solid ∧ s₁.count Toml.quote = x.count Toml.quote

theorem EndsIn.append (p p' : Bytes) (h : EndsIn s x r u) (ha : p.countP solid = p'.countP solid)
    (hq : p.count Toml.quote = p'.count Toml.quote) : EndsIn (p ++ s) (p' ++ x) r u := by
  rcases h with hle | ⟨s₁, s₂, body₂, hu, hb, rfl, ha₁, hq₁⟩
  · left
    rw [List.count_append, List.count_append]
    omega
  · refine Or.inr ⟨p ++ s₁, s₂, body₂, hu, hb, by rw [List.append_assoc], ?_, ?_⟩
    · rw [List.countP_append, List.countP_append, ha, ha₁]
    · rw [List.count_append, List.count_append, hq, hq₁]

theorem endsIn_of_mlBody (h : MlBody body s) (heq : body ++ r = escape x ++ Toml.quote :: u) : EndsIn s x r u := by
  induction h generalizing x with
  | nil => exact Or.inl (Nat.zero_le _)
  | @plain b t s hb h ih =>
    rcases escape_append_cases heq with ⟨-, hq, -⟩ | ⟨x', rfl, ⟨-, ht⟩ | ⟨hbs, -⟩⟩
    · exact absurd hq hb.1
    · exact (ih ht).append [b] [b] rfl rfl
    · exact absurd hbs hb.2.1
  | @quote t s h ih =>
    rcases escape_append_cases heq with ⟨rfl, -, ht⟩ | ⟨x', rfl, ⟨-, ht⟩ | ⟨hbs, -⟩⟩
    · exact Or.inr ⟨[], s, t, ht, h, rfl, rfl, rfl⟩
    · exact (ih ht).append [Toml.quote] [Toml.quote] rfl rfl
    · exact absurd hbs (by decide)
  | @newline n m t s hn hm h ih =>
    obtain ⟨ham, hqm⟩ := newline_count_eq_zero hm
    obtain ⟨han, hqn⟩ := newline_count_eq_zero hn
    rw [List.append_assoc] at heq
    obtain ⟨x', rfl, ht⟩ := newline_escape_cases hn heq
    exact (ih ht).append _ _ (ham.trans han.symm) (hqm.trans hqn.symm)
  | @escape e v t s he h ih =>
    rw [List.cons_append, List.cons_append, List.append_assoc] at heq
    rcases escape_append_cases heq with ⟨-, hq, -⟩ | ⟨x', rfl, ⟨hne, -⟩ | ⟨-, ht⟩⟩
    · exact absurd hq (by decide)
    · exact absurd rfl hne
    · obtain ⟨-, rfl, ht⟩ := escape_eq_of_append_eq he ht
      exact (ih ht).append _ [Toml.backslash] rfl rfl
  | @join w t s hw hb h ih =>
    rw [List.cons_append, List.cons_append, List.append_assoc] at heq
    rcases escape_append_cases heq with ⟨-, hq, -⟩ | ⟨x', rfl, ⟨hne, -⟩ | ⟨-, ht⟩⟩
    · exact absurd hq (by decide)
    · exact absurd rfl hne
    · obtain ⟨d, w', rfl⟩ := List.exists_cons_of_ne_nil hw
      obtain ⟨rfl, -⟩ := List.cons.inj ht
      exact absurd (hb _ List.mem_cons_self) (by decide)

theorem mlBody_starts (h : MlBody body s) (heq : body ++ Toml.quote :: r = c :: u) (hc : Unescaped c) :
    ∃ s', s = c :: s' := by
  cases h with
  | nil => exact absurd (List.cons.inj heq).1.symm hc.1
  | plain hb h =>
    obtain ⟨rfl, -⟩ := List.cons.inj heq
    exact ⟨_, rfl⟩
  | quote h => exact absurd (List.cons.inj heq).1.symm hc.1
  | newline hn hm h =>
    cases hn with
    | lf | crlf =>
      obtain ⟨rfl, -⟩ := List.cons.inj heq
      exact absurd hc (by decide)
  | escape he h => exact absurd (List.cons.inj heq).1.symm hc.2.1
  | join hw hb h => exact absurd (List.cons.inj heq).1.symm hc.2.1

/-- The contents of a multi-line string do not have two more quotation marks, and nothing else more, than
    the text they are read from, when an ordinary byte follows the closing mark. -/
theorem mlBody_not_two_more (h : MlBody body s)
    (heq : body ++ Toml.quote :: r = escape x ++ Toml.quote :: c :: u) (hc : Unescaped c)
    (ha : s.countP solid = 2 + x.countP solid) (hq : s.count Toml.quote = 2 + x.count Toml.quote) : False := by
  rcases endsIn_of_mlBody h heq with hle | ⟨s₁, s₂, body₂, hu, hb₂, rfl, ha₁, hq₁⟩
  · omega
  · obtain ⟨s₃, rfl⟩ := mlBody_starts hb₂ hu hc
    have hle := count_quote_le_countP_solid (s := s₃)
    simp only [List.countP_append, List.countP_cons, List.count_append, List.count_cons, ha₁, hq₁,
      solid_of_unescaped hc, solid_quote, beq_self_eq_true, ↓reduceIte, beq_iff_eq,
      hc.1] at ha hq
    omega

/-! ### Spelled strings -/

/-- When the value read at the quotation mark of a stored pattern is the pattern itself, the pattern holds
    no forbidden byte. Behind a stored pattern comes a comma or a bracket. -/
theorem keeps_of_spells (h : Spells (escape s ++ Toml.quote :: c :: u) s) (hc : Unescaped c) : ∀ b ∈ s, Keeps b := by
  -- the escaped text starts with two marks only when the pattern does, or is one mark
  have marks : ∀ {t}, Toml.quote :: Toml.quote :: t = escape s ++ Toml.quote :: c :: u →
      (s = [Toml.quote] ∧ t = c :: u) ∨
        ∃ x, s = Toml.quote :: Toml.quote :: x ∧ t = escape x ++ Toml.quote :: c :: u := by
    intro t ht
    rcases escape_append_cases ht with ⟨-, -, ht⟩ | ⟨x, rfl, ⟨-, ht⟩ | ⟨hbs, -⟩⟩
    · exact absurd (List.cons.inj ht).1.symm hc.1
    · rcases escape_append_cases ht with ⟨rfl, -, ht⟩ | ⟨x, rfl, ⟨-, ht⟩ | ⟨hbs, -⟩⟩
      · exact Or.inl ⟨rfl, ht⟩
      · exact Or.inr ⟨x, rfl, ht⟩
      · exact absurd hbs (by decide)
    · exact absurd hbs (by decide)
  generalize hrest : escape s ++ Toml.quote :: c :: u = rest at h
  cases h with
  | basic hq hbody => exact keeps_of_body hbody hrest.symm
  | multi h =>
    exfalso
    rcases marks hrest.symm with ⟨rfl, ht⟩ | ⟨x, rfl, ht⟩
    · obtain ⟨s', hs'⟩ := mlBody_starts h ht hc
      exact hc.1 (List.cons.inj hs').1.symm
    · exact mlBody_not_two_more h ht hc (by simp [List.countP_cons]; omega) (by simp; omega)
  | multiTrim hn h =>
    exfalso
    rcases marks hrest.symm with ⟨rfl, ht⟩ | ⟨x, rfl, ht⟩
    · cases hn with
      | lf | crlf =>
        obtain ⟨rfl, -⟩ := List.cons.inj ht
        exact absurd hc (by decide)
    · obtain ⟨x', rfl, ht'⟩ := newline_escape_cases hn ht
      obtain ⟨han, hqn⟩ := newline_count_eq_zero hn
      exact mlBody_not_two_more h ht' hc (by simp [List.countP_cons, han]; omega) (by simp [hqn]; omega)

end

end TgFocus
