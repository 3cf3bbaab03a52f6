import TgFocus.PosixRegex
import TgFocus.TgMsg

/-! Filters, groups of filters and their stored form (`filter.hh`, `filter.cc`). A `u32` position is a
    `UInt32`; an access outside the vector is undefined behaviour, for which the operations give `none`. -/

namespace TgFocus

inductive FocusDecision where
  | accept | skip | reject
  deriving DecidableEq, Repr

inductive FilterProperty where
  | titles | noTitles | keywords | noKeywords | senders | noSenders
  deriving DecidableEq, Repr

/-! ### Filter -/

structure Filter where
  titles : List PosixExtRegex := []
  noTitles : List PosixExtRegex := []
  senders : List PosixExtRegex := []
  noSenders : List PosixExtRegex := []
  keywords : List PosixExtRegex := []
  noKeywords : List PosixExtRegex := []
  deriving DecidableEq, Repr

namespace Filter

/-- The loop of all six `mtch_` functions: some pattern that compiled matches. -/
def mtchAny (host : Host) (input : Bytes) : List PosixExtRegex → Bool
  | [] => false
  | re :: res =>
    match re.isMatch host input with
    | some true => true
    | _ => mtchAny host input res

def mtchTitles (host : Host) (f : Filter) (input : Bytes) : Bool :=
  if f.titles.length = 0 then true else mtchAny host input f.titles

def mtchNoTitles (host : Host) (f : Filter) (input : Bytes) : Bool := mtchAny host input f.noTitles

def mtchKeywords (host : Host) (f : Filter) (input : Bytes) : Bool :=
  if f.keywords.length = 0 then true else mtchAny host input f.keywords

def mtchNoKeywords (host : Host) (f : Filter) (input : Bytes) : Bool :=
  if f.noKeywords.length = 0 then false else mtchAny host input f.noKeywords

def mtchSenders (host : Host) (f : Filter) (input : Bytes) : Bool :=
  if f.senders.length = 0 then true else mtchAny host input f.senders

def mtchNoSenders (host : Host) (f : Filter) (input : Bytes) : Bool := mtchAny host input f.noSenders

def mtchTgmsg (host : Host) (f : Filter) (m : TgMsg) : FocusDecision :=
  if f.mtchNoTitles host m.title then .reject
  else if f.mtchNoSenders host m.sender then .reject
  else if f.mtchNoKeywords host m.txt then .reject
  else if !f.mtchTitles host m.title then .skip
  else if !f.mtchSenders host m.sender then .skip
  else if !f.mtchKeywords host m.txt then .skip
  else .accept

def list (f : Filter) : FilterProperty → List PosixExtRegex
  | .titles => f.titles
  | .noTitles => f.noTitles
  | .keywords => f.keywords
  | .noKeywords => f.noKeywords
  | .senders => f.senders
  | .noSenders => f.noSenders

def modify (f : Filter) (p : FilterProperty) (g : List PosixExtRegex → List PosixExtRegex) : Filter :=
  match p with
  | .titles => { f with titles := g f.titles }
  | .noTitles => { f with noTitles := g f.noTitles }
  | .keywords => { f with keywords := g f.keywords }
  | .noKeywords => { f with noKeywords := g f.noKeywords }
  | .senders => { f with senders := g f.senders }
  | .noSenders => { f with noSenders := g f.noSenders }

/-- `⤷ (..)  (..)` and the end of the line. -/
def readableEles (list : List PosixExtRegex) : Bytes :=
  str "⤷ " ++ joinWith (str "  ") (fun el => str "(" ++ el.ptn ++ str ")") list ++ endl

def asReadable (f : Filter) : Bytes :=
  endl ++ str "🞆 Titles <titles>" ++ endl ++ readableEles f.titles ++
    str "🞆 Senders <senders>" ++ endl ++ readableEles f.senders ++
    str "🞆 Keywords <keywords>" ++ endl ++ readableEles f.keywords ++
    str "🞆 NO Titles <no-titles>" ++ endl ++ readableEles f.noTitles ++
    str "🞆 NO Senders <no-senders>" ++ endl ++ readableEles f.noSenders ++
    str "🞆 NO Keywords <no-keywords>" ++ endl ++ readableEles f.noKeywords

end Filter

/-! ### FilterGroup -/

/-- `i_prev_visited_` has no initial value in the source; `mtch_tgmsg` sets it before it is read. -/
structure FilterGroup where
  iPrevVisited : Nat := 0
  filters : List Filter
  deriving DecidableEq, Repr

namespace FilterGroup

/-- The loop over the filters: the result, and the count of the filters that were skipped. -/
def mtchLoop (host : Host) (m : TgMsg) : List Filter → Nat → Bool × Nat
  | [], visited => (false, visited)
  | f :: fs, visited =>
    if f.mtchTgmsg host m = .accept then (true, visited)
    else if f.mtchTgmsg host m = .reject then (false, visited)
    else mtchLoop host m fs (visited + 1)

def mtchTgmsg (host : Host) (g : FilterGroup) (m : TgMsg) : Bool × FilterGroup :=
  let r := mtchLoop host m g.filters 0
  (r.1, { g with iPrevVisited := r.2 })

def readableFrom (i : Nat) : List Filter → Bytes
  | [] => []
  | f :: fs =>
    endl ++ str "🞆 🞆 🞆 🞆 🞆 " ++ str "FILTER " ++ decimal (i + 1) ++ str " 🞆 🞆 🞆 🞆 🞆" ++ endl ++
      str "🞆" ++ f.asReadable ++ readableFrom (i + 1) fs

def asReadable (g : FilterGroup) : Bytes := readableFrom 0 g.filters

/-- `size () - 1` in `size_t`, which wraps for an empty vector. -/
def lastIndex (size : Nat) : Nat := if size = 0 then 0xffffffffffffffff else size - 1

/-- The position is computed in `i32`; it is cut to the size, so the vector is never accessed outside. -/
def insFilter (host : Host) (g : FilterGroup) (whichFilter : UInt32) (f : Option Filter) :
    Bool × UInt32 × FilterGroup :=
  let idx := (whichFilter - 1).toInt32
  if idx < 0 then (false, whichFilter, g)
  else
    let i := if idx.toNatClampNeg > g.filters.length then g.filters.length else idx.toNatClampNeg
    let new := f.getD { keywords := [.ofPattern host (str "tg-focus")] }
    (true, UInt32.ofNat (i + 1), { g with filters := g.filters.insertIdx i new })

def rmFilter (g : FilterGroup) (whichFilter : UInt32) : Option (Bool × FilterGroup) :=
  let idx := whichFilter - 1
  if g.filters.length = 1 ∨ idx.toNat > lastIndex g.filters.length then some (false, g)
  else if idx.toNat < g.filters.length then some (true, { g with filters := g.filters.eraseIdx idx.toNat })
  else none

/-- The position, the id and the group in which `add_one` puts a pattern: an id behind the last filter
    adds a filter. -/
def grow (g : FilterGroup) (whichFilter : UInt32) : UInt32 × UInt32 × FilterGroup :=
  let idx := whichFilter - 1
  if idx.toNat > lastIndex g.filters.length then
    let g := { g with filters := g.filters ++ [{}] }
    (UInt32.ofNat (g.filters.length - 1), UInt32.ofNat g.filters.length, g)
  else (idx, whichFilter, g)

/-- Both exits of `add_one` return `true`; a filter that was added for an id behind the last one stays
    when the pattern is then refused. -/
def addOne (host : Host) (g : FilterGroup) (whichFilter : UInt32) (p : FilterProperty) (value : Bytes) :
    Option (Bool × UInt32 × FilterGroup) :=
  if whichFilter < 1 then some (true, whichFilter, g)
  else
    let (idx, whichFilter, g) := g.grow whichFilter
    let mayRe := PosixExtRegex.ofPattern host value
    if !mayRe.isPatternAccept then some (true, whichFilter, g)
    else
      match g.filters[idx.toNat]? with
      | some f =>
        some (true, whichFilter, { g with filters := g.filters.set idx.toNat (f.modify p (· ++ [mayRe])) })
      | none => none

/-- The position and the id of the filter from which `del_one` takes a pattern: for an id behind the last
    filter, the last one. -/
def clamp (g : FilterGroup) (whichFilter : UInt32) : UInt32 × UInt32 :=
  let idx := whichFilter - 1
  if idx.toNat > lastIndex g.filters.length then
    (UInt32.ofNat (g.filters.length - 1), UInt32.ofNat g.filters.length)
  else (idx, whichFilter)

def delOne (host : Host) (g : FilterGroup) (whichFilter : UInt32) (p : FilterProperty) (value : Bytes) :
    Option (Bool × UInt32 × FilterGroup) :=
  if whichFilter < 1 then some (false, whichFilter, g)
  else
    let (idx, whichFilter) := g.clamp whichFilter
    let mayRe := PosixExtRegex.ofPattern host value
    if !mayRe.isPatternAccept then some (false, whichFilter, g)
    else
      match g.filters[idx.toNat]? with
      | some f =>
        some (true, whichFilter,
          { g with filters := g.filters.set idx.toNat (f.modify p (·.eraseP (·.ptn = value))) })
      | none => none

end FilterGroup

/-! ### Stored form -/

/-- `toml::find_or<vector<string>> (v, key, {})`: empty when the key is missing or its value has another
    type. -/
def findOrStrings (v : Toml.Value) (key : Bytes) : List Bytes :=
  ((v.get? key >>= Toml.Value.elems?) >>= List.mapM Toml.Value.string?).getD []

def FilterToml (host : Host) (v : Toml.Value) : Filter :=
  let regexes (key : String) := (findOrStrings v (str key)).map (PosixExtRegex.ofPattern host)
  { titles := regexes "titles"
    noTitles := regexes "no-titles"
    senders := regexes "senders"
    noSenders := regexes "no-senders"
    keywords := regexes "keywords"
    noKeywords := regexes "no-keywords" }

/-- `FilterGroupToml (v)`: any exception leads to the group of `[[focus-filter]]`. -/
def FilterGroupToml (host : Host) (v : Bytes) : FilterGroup :=
  let found := do
    let tomldata ← host.tomlParse v
    let focusFilter ← tomldata.get? (str "focus-filter")
    focusFilter.elems?
  { filters := (found.getD [.table []]).map (FilterToml host) }

def FilterGroup.isEffective (g : FilterGroup) : Bool := g.filters.length > 0

def escape : Bytes → Bytes
  | [] => []
  | b :: s => if b = backslash then backslash :: backslash :: escape s else b :: escape s

/-- `key = ["..", ".."]` and the end of the line. -/
def fsdataLine (key : String) (list : List PosixExtRegex) : Bytes :=
  str key ++ str " = [" ++ joinWith (str ", ") (fun el => quote :: escape el.ptn ++ [quote]) list ++ str "]" ++ endl

def Filter.asFsdata (f : Filter) : Bytes :=
  endl ++ str "[[focus-filter]]" ++ endl ++
    fsdataLine "titles" f.titles ++ fsdataLine "no-titles" f.noTitles ++
    fsdataLine "senders" f.senders ++ fsdataLine "no-senders" f.noSenders ++
    fsdataLine "keywords" f.keywords ++ fsdataLine "no-keywords" f.noKeywords

def FilterGroup.asFsdata (g : FilterGroup) : Bytes := g.filters.flatMap Filter.asFsdata

end TgFocus
