import Mathlib
import ParseKit.Settings.Loader

/-! What values the settings have in a tree that files and single values are laid over. A file may write
them in tables or under dotted keys, in upper or in lower case, and may hold anything else besides. Main
statement: `Setting.Holds.layer`, the last value of a setting in a file takes the place of the one
before. -/

namespace ParseKit

namespace Text

theorem lowerChar_eq_self {c : Char} (hlow : 0x5A < c.toNat) (hhigh : c.toNat < 0xC0) : lowerChar c = c := by
  have hruns : (capitalRuns.all fun run => run.2.1 ≤ 0x5A || 0xC0 ≤ run.1) = true := by decide +kernel
  have hshift : lowerShift? c.toNat = none := by
    refine List.findSome?_eq_none_iff.2 fun (first, last, step, shift) hrun => ?_
    refine if_neg fun ⟨hfirst, hlast, _⟩ => ?_
    have hapart := List.all_eq_true.1 hruns _ hrun
    simp only [Bool.or_eq_true, decide_eq_true_eq] at hapart
    omega
  rw [lowerChar, hshift]

theorem lower_eq_self {s : String} (h : ∀ c ∈ s.toList, 0x5A < c.toNat ∧ c.toNat < 0xC0) : lower s = s := by
  have hfrom : ∀ text before, (∀ c ∈ text, 0x5A < c.toNat ∧ c.toNat < 0xC0) →
      lowerFrom before text = text := by
    intro text
    induction text with
    | nil => exact fun _ _ => rfl
    | cons c rest ih =>
      intro before hsmall
      obtain ⟨⟨hlow, hhigh⟩, hrest⟩ := List.forall_mem_cons.1 hsmall
      have hsigma : c ≠ 'Σ' := by
        rintro rfl
        exact absurd hhigh (by decide)
      have hdotted : c ≠ 'İ' := by
        rintro rfl
        exact absurd hhigh (by decide)
      rw [lowerFrom, if_neg hsigma, if_neg hdotted, lowerChar_eq_self hlow hhigh, ih _ hrest,
        List.singleton_append]
  rw [lower, hfrom _ _ h, String.ofList_toList]

end Text

inductive SettingName where
  | emitEol
  | format
  | showLines
  deriving DecidableEq, Repr

namespace SettingName

def group : SettingName → String
  | emitEol => "lexer"
  | format | showLines => "output"

def key : SettingName → String
  | emitEol => "emit_eol"
  | format => "format"
  | showLines => "show_lines"

def dotted (name : SettingName) : String :=
  name.group ++ "." ++ name.key

def Value : SettingName → Type
  | emitEol | showLines => Bool
  | format => String

def scalar : (name : SettingName) → name.Value → Scalar
  | emitEol, b => .boolean b
  | format, s => .text s
  | showLines, b => .boolean b

def ofToml? : (name : SettingName) → Toml.Value → Option name.Value
  | emitEol, .boolean b => some b
  | format, .string s => some s
  | showLines, .boolean b => some b
  | _, _ => none

def builtIn : (name : SettingName) → name.Value
  | emitEol => true
  | format => "sexp"
  | showLines => false

theorem lower_group (name : SettingName) : Text.lower name.group = name.group := by
  cases name <;> exact Text.lower_eq_self (by simp [group])

theorem lower_key (name : SettingName) : Text.lower name.key = name.key := by
  cases name <;> exact Text.lower_eq_self (by simp [key])

theorem ofText?_dotted (name : SettingName) :
    SettingKey.ofText? name.dotted = some [.name name.group, .name name.key] := by
  cases name <;> cbv

theorem eq_of_group_of_key {name other : SettingName} (hgroup : name.group = other.group)
    (hkey : name.key = other.key) : name = other := by
  cases name <;> cases other <;> first | rfl | exact absurd hkey (by decide)

theorem ofToml_eq {name : SettingName} {value : Toml.Value} {x : name.Value}
    (h : name.ofToml? value = some x) (origin? : Option String) :
    Setting.ofToml origin? value = .scalar (name.scalar x) origin? := by
  cases name <;> cases value <;> cases h <;> rfl

end SettingName

theorem ofText?_groups : SettingKey.ofText? "lexer" = some [.name "lexer"] ∧
    SettingKey.ofText? "output" = some [.name "output"] := by
  constructor <;> cbv

theorem lower_names : Text.lower "lexer" = "lexer" ∧ Text.lower "output" = "output" ∧
    Text.lower "emit_eol" = "emit_eol" ∧ Text.lower "format" = "format" ∧
    Text.lower "show_lines" = "show_lines" :=
  ⟨SettingName.emitEol.lower_group, SettingName.format.lower_group, SettingName.emitEol.lower_key,
    SettingName.format.lower_key, SettingName.showLines.lower_key⟩

def Settings.value (s : Settings) : (name : SettingName) → name.Value
  | .emitEol => s.lexer.emitEol
  | .format => s.output.format
  | .showLines => s.output.showLines

namespace Toml.Value

/-- What stands under a key of a table. Upper and lower case are the same. -/
def under (key : String) : Value → List Value
  | table entries => (entries.filter fun entry => Text.lower entry.1 = key).map (·.2)
  | _ => []

/-- A value under a dotted key, as the first part of the key has it. An index makes an array. -/
def nested (value : Value) : SettingKey → Value
  | [] => value
  | .name key :: rest => table [(key, value.nested rest)]
  | .index _ :: _ => array [value]

theorem under_nested {key name : String} (h : Text.lower name = key) (value : Value) (rest : SettingKey) :
    (value.nested (.name name :: rest)).under key = [value.nested rest] := by
  simp [nested, under, h]

theorem under_nested_of_ne {key name : String} (h : Text.lower name ≠ key) (value : Value) (rest : SettingKey) :
    (value.nested (.name name :: rest)).under key = [] := by
  simp [nested, under, h]

end Toml.Value

/-- A dotted key leads to a table or an array, which no setting is. -/
theorem SettingName.eq_nil_of_ofToml? {name : SettingName} {value : Toml.Value} {rest : SettingKey}
    {x : name.Value} (h : name.ofToml? (value.nested rest) = some x) : rest = [] := by
  cases rest with
  | nil => rfl
  | cons step rest => cases step <;> cases name <;> cases h

def SettingName.given (name : SettingName) (value : Toml.Value) : List name.Value :=
  ((value.under name.group).flatMap (·.under name.key)).filterMap name.ofToml?

/-- The table has tables where the settings have groups, and values of the right type where it has
settings in them. -/
def Toml.Value.Fits (value : Toml.Value) : Prop :=
  ∀ name : SettingName, ∀ group ∈ value.under name.group,
    (∃ fields, group = .table fields) ∧ ∀ member ∈ group.under name.key, (name.ofToml? member).isSome

/-- What a file has under its keys, each for itself. -/
def spelledOut (entries : List (String × Toml.Value)) : List Toml.Value :=
  entries.map fun entry => entry.2.nested ((SettingKey.ofText? entry.1).getD [.name entry.1])

namespace Setting

variable {name : SettingName} {x : name.Value}

def HoldsIn (s : Setting) (name : SettingName) (x : name.Value) : Prop :=
  ∃ origin?, s.get? name.key = some (.scalar (name.scalar x) origin?)

def Holds (s : Setting) (name : SettingName) (x : name.Value) : Prop :=
  ∃ below, s.get? name.group = some below ∧ below.HoldsIn name x

theorem HoldsIn.set_of_ne {s : Setting} (h : s.HoldsIn name x) {key : String} (hkey : key ≠ name.key)
    (value : Setting) : (s.set key value).HoldsIn name x := by
  obtain ⟨origin?, hvalue⟩ := h
  exact ⟨origin?, by rw [get?_set_of_ne s hkey.symm, hvalue]⟩

theorem holdsIn_set (s : Setting) (name : SettingName) (x : name.Value) (origin? : Option String) :
    (s.set name.key (.scalar (name.scalar x) origin?)).HoldsIn name x :=
  ⟨origin?, get?_set_self ..⟩

theorem Holds.set_of_ne {s : Setting} (h : s.Holds name x) {key : String} (hkey : key ≠ name.group)
    (value : Setting) : (s.set key value).Holds name x := by
  obtain ⟨below, hgroup, hbelow⟩ := h
  exact ⟨below, by rw [get?_set_of_ne s hkey.symm, hgroup], hbelow⟩

theorem HoldsIn.holds_set {below : Setting} (h : below.HoldsIn name x) (s : Setting) :
    (s.set name.group below).Holds name x :=
  ⟨below, get?_set_self .., h⟩

theorem HoldsIn.layAllOver (origin? : Option String) {fields : List (String × Toml.Value)} {s : Setting}
    (h : s.HoldsIn name x)
    (hfields : ∀ member ∈ (Toml.Value.table fields).under name.key, (name.ofToml? member).isSome) :
    (s.layAllOver (ofTomlEntries origin? fields)).HoldsIn name
      ((((Toml.Value.table fields).under name.key).filterMap name.ofToml?).getLast?.getD x) := by
  induction fields generalizing s x with
  | nil => simpa [Toml.Value.under, ofTomlEntries, Setting.layAllOver] using h
  | cons field rest ih =>
    obtain ⟨key, value⟩ := field
    simp only [ofTomlEntries, Setting.layAllOver]
    by_cases hkey : Text.lower key = name.key
    · have hunder : (Toml.Value.table ((key, value) :: rest)).under name.key =
          value :: (Toml.Value.table rest).under name.key := by simp [Toml.Value.under, hkey]
      rw [hunder, List.forall_mem_cons] at hfields
      obtain ⟨y, hy⟩ := Option.isSome_iff_exists.1 hfields.1
      have hlaid := ih (holdsIn_set s name y origin?) hfields.2
      rw [hunder, List.filterMap_cons_some hy, List.getLast?_cons, Option.getD_some, hkey,
        SettingName.ofToml_eq hy, layOver_scalar]
      exact hlaid
    · have hunder : (Toml.Value.table ((key, value) :: rest)).under name.key =
          (Toml.Value.table rest).under name.key := by simp [Toml.Value.under, hkey]
      rw [hunder] at hfields ⊢
      exact ih (h.set_of_ne hkey _) hfields

theorem HoldsIn.put (origin? : Option String) {s : Setting} (h : s.HoldsIn name x) {rest : SettingKey}
    {value : Toml.Value} (htable : ∃ fields, value.nested rest = .table fields)
    (hmembers : ∀ member ∈ (value.nested rest).under name.key, (name.ofToml? member).isSome) :
    (put (ofToml origin? value) rest (some s)).HoldsIn name
      ((((value.nested rest).under name.key).filterMap name.ofToml?).getLast?.getD x) := by
  obtain ⟨fields, hfields⟩ := htable
  cases rest with
  | nil =>
    rw [Toml.Value.nested] at hfields hmembers ⊢
    subst hfields
    exact h.layAllOver origin? hmembers
  | cons step rest =>
    cases step with
    | index i => cases hfields
    | name field =>
      rw [Setting.put, Option.getD_some]
      by_cases hfield : Text.lower field = name.key
      · rw [Toml.Value.under_nested hfield] at hmembers ⊢
        obtain ⟨y, hy⟩ := Option.isSome_iff_exists.1 (hmembers _ (List.mem_singleton_self _))
        -- A longer key would not lead to a value of the right type.
        obtain rfl := SettingName.eq_nil_of_ofToml? hy
        have hvalue : ofToml origin? value = .scalar (name.scalar y) origin? := SettingName.ofToml_eq hy origin?
        rw [List.filterMap_cons_some hy, hfield, Setting.put, hvalue, layOver_scalar]
        exact holdsIn_set s name y origin?
      · rw [Toml.Value.under_nested_of_ne hfield]
        exact h.set_of_ne hfield _

theorem Holds.put (origin? : Option String) {s : Setting} (h : s.Holds name x) {key : String}
    {rest : SettingKey} {value : Toml.Value} (hfits : (value.nested (.name key :: rest)).Fits) :
    (put (ofToml origin? value) (.name key :: rest) (some s)).Holds name
      ((name.given (value.nested (.name key :: rest))).getLast?.getD x) := by
  have hname := hfits name
  rw [SettingName.given]
  by_cases hgroup : Text.lower key = name.group
  · obtain ⟨below, hbelow, hholds⟩ := h
    rw [Toml.Value.under_nested hgroup, List.forall_mem_singleton] at hname
    rw [Toml.Value.under_nested hgroup, List.flatMap_singleton, Setting.put, Option.getD_some, hgroup, hbelow]
    exact (hholds.put origin? hname.1 hname.2).holds_set s
  · rw [Toml.Value.under_nested_of_ne hgroup]
    exact h.set_of_ne hgroup _

theorem exists_name_of_ofText? {text : String} {path : SettingKey} (h : SettingKey.ofText? text = some path) :
    ∃ key rest, path = .name key :: rest := by
  simp only [SettingKey.ofText?, Option.bind_eq_bind, Option.bind_eq_some_iff] at h
  obtain ⟨⟨first, after⟩, hfirst, rest, -, hpath⟩ := h
  unfold SettingKey.name? at hfirst
  split at hfirst
  · cases hfirst
  · cases hfirst
    cases hpath
    exact ⟨_, rest, rfl⟩

theorem Holds.layer (origin? : Option String) {entries : List (String × Toml.Value)} {s : Setting}
    (h : s.Holds name x) (hfits : ∀ value ∈ spelledOut entries, value.Fits) :
    (s.layer (ofTomlEntries origin? entries)).Holds name
      (((spelledOut entries).flatMap name.given).getLast?.getD x) := by
  induction entries generalizing s x with
  | nil => simpa [spelledOut, ofTomlEntries, Setting.layer] using h
  | cons entry rest ih =>
    obtain ⟨key, value⟩ := entry
    obtain ⟨first, others, hpath⟩ : ∃ first others,
        (SettingKey.ofText? key).getD [.name key] = .name first :: others := by
      cases hkey : SettingKey.ofText? key with
      | none => exact ⟨key, [], rfl⟩
      | some path => exact exists_name_of_ofText? hkey
    have hspelled : spelledOut ((key, value) :: rest) =
        value.nested (.name first :: others) :: spelledOut rest := by simp [spelledOut, hpath]
    rw [hspelled, List.forall_mem_cons] at hfits
    have hput := ih (h.put origin? hfits.1) hfits.2
    rw [hspelled, List.flatMap_cons, List.getLast?_append, Option.getD_or]
    simpa [Setting.layer, ofTomlEntries, hpath] using hput

theorem holds_put (s : Setting) (name : SettingName) (x : name.Value) :
    (Setting.put (.scalar (name.scalar x) none) [.name name.group, .name name.key] (some s)).Holds name x := by
  simp only [Setting.put, name.lower_group, name.lower_key, layOver_scalar]
  exact (holdsIn_set _ name x none).holds_set _

theorem Holds.put_of_ne {s : Setting} (h : s.Holds name x) {other : SettingName} (hne : other ≠ name)
    (y : other.Value) :
    (Setting.put (.scalar (other.scalar y) none) [.name other.group, .name other.key] (some s)).Holds name x := by
  simp only [Setting.put, other.lower_group, other.lower_key, layOver_scalar, Option.getD_some]
  by_cases hgroup : other.group = name.group
  · obtain ⟨below, hbelow, hholds⟩ := h
    have hkey : other.key ≠ name.key := fun hkey => hne (SettingName.eq_of_group_of_key hgroup hkey)
    rw [hgroup, hbelow]
    exact (hholds.set_of_ne hkey _).holds_set s
  · exact h.set_of_ne hgroup _

theorem HoldsIn.exists_table {s : Setting} (h : s.HoldsIn name x) :
    ∃ fields origin?, s = .table fields origin? := by
  obtain ⟨origin?, hvalue⟩ := h
  cases s with
  | table fields origin? => exact ⟨fields, origin?, rfl⟩
  | unset | scalar | array => cases hvalue

theorem toSettings_of_holds {s : Setting} {values : (name : SettingName) → name.Value}
    (h : ∀ name, s.Holds name (values name)) :
    ∃ settings, s.toSettings = .ok settings ∧ ∀ name, settings.value name = values name := by
  obtain ⟨lexer, hlexer, hemitEol⟩ := h .emitEol
  obtain ⟨output, houtput, hformat⟩ := h .format
  obtain ⟨output', houtput', hshowLines⟩ := h .showLines
  obtain rfl : output = output' := Option.some.inj (houtput.symm.trans houtput')
  obtain ⟨lexerFields, lexerOrigin?, rfl⟩ := hemitEol.exists_table
  obtain ⟨outputFields, outputOrigin?, rfl⟩ := hformat.exists_table
  obtain ⟨_, hemitEol⟩ := hemitEol
  obtain ⟨_, hformat⟩ := hformat
  obtain ⟨_, hshowLines⟩ := hshowLines
  have hlexerOptions : toLexerOptions (.table lexerFields lexerOrigin?) = .ok ⟨values .emitEol⟩ := by
    simp only [get?, entries, SettingName.key] at hemitEol
    rw [toLexerOptions, hemitEol]
    rfl
  have houtputSettings : toOutputSettings (.table outputFields outputOrigin?) =
      .ok ⟨values .format, values .showLines⟩ := by
    simp only [get?, entries, SettingName.key] at hformat hshowLines
    rw [toOutputSettings, hformat, hshowLines]
    rfl
  refine ⟨⟨⟨values .emitEol⟩, ⟨values .format, values .showLines⟩⟩, ?_, ?_⟩
  · simp only [SettingName.group] at hlexer houtput
    rw [toSettings, hlexer, houtput, Option.mapM_some, Option.mapM_some, hlexerOptions, houtputSettings]
    rfl
  · rintro (_ | _ | _) <;> rfl

end Setting

end ParseKit
