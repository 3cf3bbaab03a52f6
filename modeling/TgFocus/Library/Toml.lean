import TgFocus.Library.Utf8

/-! TOML 1.0 as far as strings, arrays of strings and arrays of tables go: the values, how a string is
    spelled between quotation marks, documents made of sections of one array of tables, and what it
    means for a parser to read them as TOML 1.0 says. Characters are the bytes of their UTF-8 form. -/

namespace Toml

/-- A value of a document. Integers, floats, booleans and dates are kept as written. -/
inductive Value where
  | string (s : List UInt8)
  | array (vs : List Value)
  | table (kvs : List (List UInt8 × Value))
  | scalar (text : List UInt8)

def Value.get? (key : List UInt8) : Value → Option Value
  | .table kvs => kvs.lookup key
  | _ => none

def Value.elems? : Value → Option (List Value)
  | .array vs => some vs
  | _ => none

def Value.string? : Value → Option (List UInt8)
  | .string s => some s
  | _ => none

/-! ### Strings -/

def quote : UInt8 := 0x22

def backslash : UInt8 := 0x5c

/-- A byte that stands for itself in a basic string: no quotation mark, no backslash and no control
    character other than tab. -/
def Unescaped (b : UInt8) : Prop := b ≠ quote ∧ b ≠ backslash ∧ (b = 0x09 ∨ 0x20 ≤ b) ∧ b ≠ 0x7f

instance (b : UInt8) : Decidable (Unescaped b) := inferInstanceAs (Decidable (_ ∧ _))

/-- What the escape sequences of one letter stand for. -/
def shortEscape (b : UInt8) : Option UInt8 :=
  if b = 0x62 then some 0x08
  else if b = 0x74 then some 0x09
  else if b = 0x6e then some 0x0a
  else if b = 0x66 then some 0x0c
  else if b = 0x72 then some 0x0d
  else if b = quote then some quote
  else if b = backslash then some backslash
  else none

/-- What may follow a backslash, and what it stands for: a letter, or `u` or `U` with the four or eight
    digits of a character. -/
inductive Escape : List UInt8 → List UInt8 → Prop where
  | short {e v : UInt8} (h : shortEscape e = some v) : Escape [e] [v]
  | unicode {ds : List UInt8} (c : Char) (h : ds.length = 4) : Escape (0x75 :: ds) (String.utf8EncodeChar c)
  | unicodeLong {ds : List UInt8} (c : Char) (h : ds.length = 8) : Escape (0x55 :: ds) (String.utf8EncodeChar c)

inductive ShortEscape : List UInt8 → List UInt8 → Prop where
  | intro {e v : UInt8} (h : shortEscape e = some v) : ShortEscape [e] [v]

/-- The text between the quotation marks of a basic string, and the string it spells. -/
inductive Body (esc : List UInt8 → List UInt8 → Prop) : List UInt8 → List UInt8 → Prop where
  | nil : Body esc [] []
  | plain {b : UInt8} {t s : List UInt8} (hb : Unescaped b) (h : Body esc t s) : Body esc (b :: t) (b :: s)
  | escape {e v t s : List UInt8} (he : esc e v) (h : Body esc t s) :
      Body esc (backslash :: e ++ t) (v ++ s)

inductive Newline : List UInt8 → Prop where
  | lf : Newline [0x0a]
  | crlf : Newline [0x0d, 0x0a]

def Blank (b : UInt8) : Prop := b = 0x20 ∨ b = 0x09 ∨ b = 0x0a ∨ b = 0x0d

instance (b : UInt8) : Decidable (Blank b) := inferInstanceAs (Decidable (_ ∨ _))

/-- The text inside a multi-line basic string, and the string it spells. A line ending stands for one
    that the parser chooses; a backslash before a line ending removes the blanks that follow. -/
inductive MlBody : List UInt8 → List UInt8 → Prop where
  | nil : MlBody [] []
  | plain {b : UInt8} {t s : List UInt8} (hb : Unescaped b) (h : MlBody t s) : MlBody (b :: t) (b :: s)
  | quote {t s : List UInt8} (h : MlBody t s) : MlBody (Toml.quote :: t) (Toml.quote :: s)
  | newline {n m t s : List UInt8} (hn : Newline n) (hm : Newline m) (h : MlBody t s) : MlBody (n ++ t) (m ++ s)
  | escape {e v t s : List UInt8} (he : Escape e v) (h : MlBody t s) : MlBody (backslash :: e ++ t) (v ++ s)
  | join {w t s : List UInt8} (hw : w ≠ []) (hb : ∀ b ∈ w, Blank b) (h : MlBody t s) :
      MlBody (backslash :: w ++ t) s

/-- `rest` follows the opening quotation mark of a string value and starts with the spelling of `s`. Two
    more quotation marks open a multi-line string, whose first line ending is dropped. -/
inductive Spells : List UInt8 → List UInt8 → Prop where
  | basic {body rest s : List UInt8} (hq : ¬[quote, quote] <+: body ++ quote :: rest) (h : Body Escape body s) :
      Spells (body ++ quote :: rest) s
  | multi {body rest s : List UInt8} (h : MlBody body s) :
      Spells (quote :: quote :: (body ++ quote :: quote :: quote :: rest)) s
  | multiTrim {n body rest s : List UInt8} (hn : Newline n) (h : MlBody body s) :
      Spells (quote :: quote :: (n ++ (body ++ quote :: quote :: quote :: rest))) s

/-! ### Sections of an array of tables -/

def bareChar (b : UInt8) : Bool :=
  (0x41 ≤ b && b ≤ 0x5a) || (0x61 ≤ b && b ≤ 0x7a) || (0x30 ≤ b && b ≤ 0x39) || b == 0x2d || b == 0x5f

def BareKey (key : List UInt8) : Prop := key ≠ [] ∧ ∀ b ∈ key, bareChar b = true

instance (key : List UInt8) : Decidable (BareKey key) :=
  haveI := List.decidableBAll (fun b => bareChar b = true) key
  inferInstanceAs (Decidable (_ ∧ _))

/-- A basic string of a document: the text between its quotation marks and the string it spells. -/
structure Item where
  body : List UInt8
  value : List UInt8
  spells : Body ShortEscape body value

def Item.text (i : Item) : List UInt8 := quote :: i.body ++ [quote]

structure Line where
  key : List UInt8
  items : List Item
  bare : BareKey key

def opening : List UInt8 := [0x20, 0x3d, 0x20, 0x5b]

def comma : List UInt8 := [0x2c, 0x20]

def closing : List UInt8 := [0x5d, 0x0a]

def Line.text (l : Line) : List UInt8 :=
  l.key ++ opening ++ comma.intercalate (l.items.map Item.text) ++ closing

def Line.entry (l : Line) : List UInt8 × List (List UInt8) := (l.key, l.items.map Item.value)

/-- The lines under one header, each key once. -/
structure Section where
  lines : List Line
  nodup : (lines.map Line.key).Nodup

/-- An empty line and the header `[[name]]`. -/
def header (name : List UInt8) : List UInt8 := 0x0a :: 0x5b :: 0x5b :: name ++ [0x5d, 0x5d, 0x0a]

def Section.text (name : List UInt8) (s : Section) : List UInt8 := header name ++ s.lines.flatMap Line.text

def Section.entries (s : Section) : List (List UInt8 × List (List UInt8)) := s.lines.map Line.entry

/-- The table of keys that hold strings. -/
def tableOf (kvs : List (List UInt8 × List (List UInt8))) : Value :=
  .table (kvs.map fun kv => (kv.1, .array (kv.2.map .string)))

def text (name : List UInt8) (ss : List Section) : List UInt8 := ss.flatMap (Section.text name)

/-- The element `j` of the array under `key` in the table `i` of the array of tables `name`. -/
def elementAt (name : List UInt8) (i : Nat) (key : List UInt8) (j : Nat) (v : Value) : Option Value := do
  let tables ← v.get? name >>= Value.elems?
  let elems ← tables[i]? >>= Value.get? key >>= Value.elems?
  elems[j]?

/-- A parser reads the documents of the array of tables `name` as TOML 1.0 says; `none` is an error. -/
structure Conforms (name : List UInt8) (parse : List UInt8 → Option Value) : Prop where
  utf8 : ∀ {text v}, parse text = some v → Utf8.Valid text
  /-- The empty document is the empty table. -/
  empty : parse [] = some (.table [])
  /-- A document of sections is the array of their tables. -/
  accepts : ∀ {ss : List Section}, ss ≠ [] → Utf8.Valid (text name ss) →
    parse (text name ss) = some (.table [(name, .array (ss.map fun s => tableOf s.entries))])
  /-- In a document that is accepted, the value at a place of an array is the string spelled there,
      when a quotation mark opens it. -/
  position : ∀ {ss : List Section} {s : Section} {key : List UInt8} {items : List Item} {rest v},
    BareKey key → key ∉ s.lines.map Line.key →
    parse (text name ss ++ s.text name ++ key ++ opening ++ items.flatMap (fun i => i.text ++ comma) ++
      quote :: rest) = some v →
    ∃ str, Spells rest str ∧ elementAt name ss.length key items.length v = some (.string str)

end Toml
