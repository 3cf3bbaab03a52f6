import TgFocus.DataRoot
import TgFocus.Theorems.CliSaves
import TgFocus.Theorems.StoredIds

/-! The data root as a record of settings. The getters see what was last set, or what the files held when
    the first process found them, or the default; texts that no buffer takes are seen as `-`. -/

namespace TgFocus
open FilterSessions

/-! ### The record -/

inductive ChatKind where
  | basic | super | neither
  deriving DecidableEq, Repr

def ChatKind.ofByte (b : UInt8) : ChatKind := if b = 2 then .basic else if b = 3 then .super else .neither

structure Settings where
  apiId : Int32
  apiHash : Bytes
  authHint : Bool
  filters : Bytes
  filtersTmp : Bytes
  tgfid : Int64
  chatKind : ChatKind
  prefLang : Lang
  deriving DecidableEq, Repr

/-- A text as it is read back. -/
def whole (s : Bytes) : Bytes := if ReadWhole s then s else str "-"

namespace Settings

def default : Settings where
  apiId := 0
  apiHash := []
  authHint := false
  filters := DataRoot.defaultCtn
  filtersTmp := []
  tgfid := -1
  chatKind := .basic
  prefLang := .unknown

/-- What the files mean, with the defaults for those that are missing; the temporary file is emptied. -/
def ofDisk (d : Disk) : Settings where
  apiId := (d.apiId.map fun c => Int32.ofBitVec (loadBytes 4 c)).getD default.apiId
  apiHash := (d.apiHash.map fun c => DataRoot.trim (whole c)).getD default.apiHash
  authHint := decide (d.authHint = some (str "a"))
  filters := (d.filters.map whole).getD default.filters
  filtersTmp := []
  tgfid := (d.tgfid.map fun c => Int64.ofBitVec (loadBytes 8 c)).getD default.tgfid
  chatKind := (d.tgfidType.map fun c => .ofByte (c.headD 0)).getD default.chatKind
  prefLang := (d.prefLang.map fun c => .ofByte (c.headD 0)).getD default.prefLang

/-- An operation on the record; `canSave` says whether the filters file can be locked and written. An empty
    text sets nothing. -/
def apply (canSave : Bool) (a : Settings) : DataRoot.Op → Settings
  | .construct => { a with filtersTmp := [] }
  | .setApiId v => { a with apiId := v }
  | .setApiHash s => if s = [] then a else { a with apiHash := DataRoot.trim (whole s) }
  | .setAuthHint flag => { a with authHint := flag }
  | .setFilters s => if s = [] ∨ canSave = false then a else { a with filters := whole s }
  | .prepareFiltersTmp => { a with filtersTmp := a.filters }
  | .edit tmp => { a with filtersTmp := whole tmp }
  | .setTgfid v => { a with tgfid := v }
  | .setPrefLang l => { a with prefLang := .ofByte l.toByte }
  | .setBasicTgfid => { a with chatKind := .basic }
  | .setSuperTgfid => { a with chatKind := .super }

end Settings

/-- The settings that the getters of `UserData` deliver. -/
def DataRoot.settings (u : DataRoot) : Settings where
  apiId := u.getApiId
  apiHash := u.getApiHash
  authHint := u.getAuthHint
  filters := u.getFilters
  filtersTmp := u.getFiltersTmp
  tgfid := u.getTgfid
  chatKind := if u.isBasicTgfid then .basic else if u.isSuperTgfid then .super else .neither
  prefLang := u.getPrefLang

/-! ### The getters -/

theorem whole_of_readWhole {s : Bytes} (h : ReadWhole s) : whole s = s := if_pos h

@[simp] theorem whole_nil : whole [] = [] := whole_of_readWhole (by decide)

theorem whole_eq_a {s : Bytes} : whole s = str "a" ↔ s = str "a" := by
  rw [whole]
  split
  · exact Iff.rfl
  · rename_i h
    refine iff_of_false (by decide) ?_
    rintro rfl
    exact h (by decide)

theorem whole_whole (s : Bytes) : whole (whole s) = whole s := by
  by_cases h : ReadWhole s
  · rw [whole_of_readWhole h, whole_of_readWhole h]
  · have hdash : whole s = str "-" := if_neg h
    rw [hdash]
    exact whole_of_readWhole (by decide)

theorem whole_eq_nil {s : Bytes} : whole s = [] ↔ s = [] := by
  by_cases h : ReadWhole s
  · rw [whole_of_readWhole h]
  · have hdash : whole s = str "-" := if_neg h
    refine iff_of_false (hdash ▸ by decide) ?_
    rintro rfl
    exact h (by decide)

namespace DataRoot
variable {u : DataRoot} {c : Bytes} {canSave : Bool}

theorem readOrDash_eq_whole : readOrDash c = whole c := by
  by_cases h : ReadWhole c
  · rw [whole_of_readWhole h]
    exact getFiltersTmp_of_readWhole h
  · rw [whole, if_neg h]
    exact getFiltersTmp_of_not_readWhole h

theorem getFilters_eq_whole : u.getFilters = whole u.userdata.filters := readOrDash_eq_whole

theorem getFiltersTmp_eq_whole : u.getFiltersTmp = whole u.filtersTmp := readOrDash_eq_whole

theorem getApiHash_eq : u.getApiHash = trim (whole u.apiHash) := by
  rw [getApiHash, readOrDash_eq_whole]

@[simp] theorem readByte_eq : readByte c = c.headD 0 := by
  cases c <;> rfl

theorem getAuthHint_eq : u.getAuthHint = decide (u.authHint = str "a") := by
  rw [getAuthHint, readOrDash_eq_whole]
  by_cases h : u.authHint = str "a"
  · rw [if_pos (whole_eq_a.mpr h), decide_eq_true h]
  · rw [if_neg (mt whole_eq_a.mp h), decide_eq_false h, ite_self]

theorem chatKind_eq :
    (if u.isBasicTgfid then ChatKind.basic else if u.isSuperTgfid then .super else .neither) =
      .ofByte (u.tgfidType.headD 0) := by
  simp only [isBasicTgfid, isSuperTgfid, getTgfidType, readByte_eq, ChatKind.ofByte, decide_eq_true_iff]

/-- The settings by the contents of the files. -/
theorem settings_eq :
    u.settings =
      { apiId := u.ids.getApiId, apiHash := trim (whole u.apiHash), authHint := decide (u.authHint = str "a"),
        filters := whole u.userdata.filters, filtersTmp := whole u.filtersTmp, tgfid := u.ids.getTgfid,
        chatKind := .ofByte (u.tgfidType.headD 0), prefLang := .ofByte (u.prefLang.headD 0) } := by
  simp only [settings, chatKind_eq, getAuthHint_eq, getFilters_eq_whole, getFiltersTmp_eq_whole, getApiHash_eq,
    getPrefLang, readByte_eq]
  rfl

/-! ### One operation -/

theorem settings_construct (lckFilters writable : Bool) (d : Disk) :
    (construct false lckFilters writable d).settings = Settings.ofDisk d := by
  have htgfid : Int64.ofBitVec (loadBytes 8 (List.replicate 8 0xff)) = -1 := by decide
  have hapiId : Int32.ofBitVec (loadBytes 4 []) = 0 := by decide
  have hdefault : whole defaultCtn = defaultCtn := whole_of_readWhole (by decide)
  obtain ⟨apiId, apiHash, authHint, filters, filtersTmp, tgfid, tgfidType, prefLang⟩ := d
  simp only [settings_eq, Settings.ofDisk, Settings.mk.injEq]
  refine ⟨?_, ?_, ?_, ?_, whole_nil, ?_, ?_, ?_⟩
  · cases apiId with
    | none => exact hapiId
    | some c => rfl
  · cases apiHash with
    | none => exact (congrArg trim whole_nil).trans rfl
    | some c => rfl
  · cases authHint with
    | none => exact (show decide (([] : Bytes) = str "a") = decide (none = some (str "a")) by decide)
    | some c => simp [construct]
  · cases filters with
    | none => exact hdefault
    | some c => rfl
  · cases tgfid with
    | none => exact htgfid
    | some c => rfl
  · cases tgfidType with
    | none => rfl
    | some c => rfl
  · cases prefLang with
    | none => rfl
    | some c => rfl

theorem userdata_setFilters {s : Bytes} :
    (u.userdata.setFilters s).filters =
      if s = [] ∨ (u.userdata.lckFilters && u.userdata.writable) = false then u.userdata.filters else s := by
  by_cases hs : s = []
  · simp [UserData.setFilters, hs]
  · cases hl : u.userdata.lckFilters with
    | false => simp [UserData.setFilters, hl]
    | true => cases hw : u.userdata.writable <;> simp [UserData.setFilters, hl, hw, hs]

/-- An operation keeps what decides whether the filters file can be written. -/
theorem canSave_apply {op : Op} :
    ((u.apply op).userdata.lckFilters && (u.apply op).userdata.writable) =
      (u.userdata.lckFilters && u.userdata.writable) := by
  cases op with
  | setFilters s =>
    simp only [apply, setFilters, UserData.setFilters]
    split <;> try rfl
    split <;> try rfl
    split <;> rfl
  | setApiHash s =>
    simp only [apply, setApiHash]
    split <;> rfl
  | setAuthHint flag => cases flag <;> rfl
  | _ => rfl

theorem settings_apply (h : (u.userdata.lckFilters && u.userdata.writable) = canSave) (op : Op) :
    (u.apply op).settings = u.settings.apply canSave op := by
  cases op with
  | construct =>
    rw [apply, settings_construct]
    simp only [settings_eq, Settings.apply, Settings.ofDisk, disk, Option.map_some, Option.getD_some,
      Option.some.injEq]
    rfl
  | setApiId v =>
    have hread := (u.ids.read_back 0 v).2.1
    simp only [apply, setApiId, settings_eq, Settings.apply]
    rw [hread]
    rfl
  | setTgfid v =>
    have hread := (u.ids.read_back v 0).1.1
    simp only [apply, setTgfid, settings_eq, Settings.apply]
    rw [hread]
    rfl
  | setApiHash s =>
    simp only [apply, setApiHash, settings_eq, Settings.apply, List.length_eq_zero_iff]
    split <;> rfl
  | setAuthHint flag =>
    cases flag <;> simp [apply, setAuthHint, settings_eq, Settings.apply, show str "u" ≠ str "a" by decide]
  | setFilters s =>
    simp only [apply, setFilters, settings_eq, Settings.apply, userdata_setFilters, h]
    split <;> rfl
  | prepareFiltersTmp | edit tmp | setPrefLang l | setBasicTgfid | setSuperTgfid =>
    simp [apply, prepareFiltersTmp, setPrefLang, setBasicTgfid, setSuperTgfid, setTgfidType, settings_eq,
      Settings.apply, ChatKind.ofByte]

/-! ### Runs -/

/-- Without files the settings are the defaults. -/
example : Settings.ofDisk {} = Settings.default := rfl

end DataRoot

end TgFocus
