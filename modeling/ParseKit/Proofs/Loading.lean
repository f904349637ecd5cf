import Mathlib
import ParseKit.Proofs.LayeredSettings

/-! What a loader makes of the calls that it was built by. A file that has to exist and is missing ends
the loading. Otherwise the last override of a setting counts, wherever it stands among the calls, else
the last value in a file, else the one that is built in. Main statement:
`Loader.build_layers_settings`. -/

namespace ParseKit

structure Override where
  name : SettingName
  value : name.Value

namespace Override

def kept (o : Override) : String × Scalar :=
  (o.name.dotted, o.name.scalar o.value)

def valueOf? (name : SettingName) (o : Override) : Option name.Value :=
  if h : o.name = name then some (h ▸ o.value) else none

end Override

namespace Loader

inductive Call where
  | file (path : String)
  | optionalFile (path : String)
  | override (o : Override)

namespace Call

def apply (loader : Loader) : Call → Loader
  | file path => loader.withFile path
  | optionalFile path => loader.withOptionalFile path
  | override o => loader.override o.name.dotted (o.name.scalar o.value)

def layer? : Call → Option Layer
  | file path => some ⟨path, true⟩
  | optionalFile path => some ⟨path, false⟩
  | override _ => none

def override? : Call → Option Override
  | override o => some o
  | _ => none

end Call

def after (calls : List Call) : Loader :=
  calls.foldl Call.apply {}

/-- Files and overrides are kept apart, each in the order of the calls. -/
theorem after_eq (calls : List Call) : after calls =
    ⟨calls.filterMap Call.layer?, (calls.filterMap Call.override?).map Override.kept⟩ := by
  have hfold : ∀ loader : Loader, calls.foldl Call.apply loader =
      ⟨loader.layers ++ calls.filterMap Call.layer?,
        loader.overrides ++ (calls.filterMap Call.override?).map Override.kept⟩ := by
    induction calls with
    | nil => simp
    | cons call rest ih =>
      intro loader
      rw [List.foldl_cons, ih]
      cases call <;> simp [List.filterMap_cons, Call.apply, Call.layer?, Call.override?, Override.kept,
        withFile, withOptionalFile, Loader.override]
  simpa [after] using hfold {}

theorem overrideKeys_eq (overrides : List Override) : overrideKeys (overrides.map Override.kept) =
    .ok (overrides.map fun o => ([.name o.name.group, .name o.name.key], o.name.scalar o.value)) := by
  induction overrides with
  | nil => rfl
  | cons o rest ih =>
    unfold overrideKeys at ih ⊢
    simp only [List.map_cons, List.mapM_cons, ih, Override.kept, SettingName.ofText?_dotted]
    rfl

section Files

variable (files : FileAccess Id)

/-- There is no file at the path, or one that gives settings of the right types. -/
inductive Finds (path : String) : Option (List (String × Toml.Value)) → Prop
  | missing (hmissing : firstFile? files (candidates path) = none) : Finds path none
  | present {place text : String} {bytes : List UInt8} {entries : List (String × Toml.Value)}
      (hplace : firstFile? files (candidates path) = some (place, bytes))
      (htext : String.fromUTF8? (ByteArray.mk bytes.toArray) = some text)
      (hentries : Toml.ofChars? text.toList = some entries)
      (hfits : ∀ value ∈ spelledOut entries, value.Fits) : Finds path (some entries)

variable {files} {layer : Layer}

theorem Finds.fits {content : Option (List (String × Toml.Value))} {path : String}
    (h : Finds files path content) : ∀ value ∈ spelledOut (content.getD []), value.Fits := by
  cases h with
  | missing => simp [spelledOut]
  | present _ _ _ hfits => exact hfits

theorem readLayer_missing (h : Finds files layer.path none) :
    readLayer files layer = if layer.required then throw (.fileNotFound layer.path) else pure [] := by
  cases h with
  | missing hmissing =>
    have htext : fileText files layer.path = throw (.fileNotFound layer.path) := by
      rw [fileText, hmissing]
      rfl
    rw [readLayer, htext]
    rfl

theorem readLayer_present {entries : List (String × Toml.Value)} (h : Finds files layer.path (some entries)) :
    ∃ origin?, readLayer files layer = pure (Setting.ofTomlEntries origin? entries) := by
  cases h with
  | @present place text bytes _ hplace htext hentries _ =>
    have hfileText : fileText files layer.path = pure (place, text) := by
      have hfirst : firstFile? files (candidates layer.path) = pure (some (place, bytes)) := hplace
      simp [fileText, hfirst, htext]
    refine ⟨some (Path.relative files.workingDirectory place), ?_⟩
    rw [readLayer, hfileText]
    show ofExcept (fileEntries _ text) = _
    rw [fileEntries, hentries]
    rfl

end Files

section Layers

variable (content : String → Option (List (String × Toml.Value)))

def lacks (layer : Layer) : Bool :=
  layer.required && (content layer.path).isNone

/-- The values that files give a setting, in their order. A missing file gives none. -/
def filed (name : SettingName) (layers : List Layer) : List name.Value :=
  layers.flatMap fun layer => (spelledOut ((content layer.path).getD [])).flatMap name.given

def Adds (layer : Layer) (settings : List (String × Setting)) : Prop :=
  ∃ origin?, settings = Setting.ofTomlEntries origin? ((content layer.path).getD [])

variable {content} {files : FileAccess Id}

theorem readLayer_lacks {layer : Layer} (h : Finds files layer.path (content layer.path))
    (hlacks : lacks content layer = true) : readLayer files layer = throw (.fileNotFound layer.path) := by
  obtain ⟨hrequired, hnone⟩ := Bool.and_eq_true_iff.1 hlacks
  rw [Option.isNone_iff_eq_none.1 hnone] at h
  rw [readLayer_missing h, if_pos hrequired]

theorem exists_readLayer {layer : Layer} (h : Finds files layer.path (content layer.path))
    (hlacks : lacks content layer = false) :
    ∃ settings, readLayer files layer = pure settings ∧ Adds content layer settings := by
  cases hcontent : content layer.path with
  | none =>
    have hoptional : layer.required = false := by simpa [lacks, hcontent] using hlacks
    rw [hcontent] at h
    refine ⟨[], by simp [readLayer_missing h, hoptional], none, ?_⟩
    rw [hcontent]
    rfl
  | some entries =>
    rw [hcontent] at h
    obtain ⟨origin?, hread⟩ := readLayer_present h
    exact ⟨_, hread, origin?, by rw [hcontent, Option.getD_some]⟩

variable {layers : List Layer}

theorem mapM_readLayer_lacks (hfinds : ∀ layer ∈ layers, Finds files layer.path (content layer.path))
    {layer : Layer} (h : layers.find? (lacks content) = some layer) :
    layers.mapM (readLayer files) = throw (.fileNotFound layer.path) := by
  induction layers with
  | nil => cases h
  | cons first rest ih =>
    rw [List.forall_mem_cons] at hfinds
    rw [List.mapM_cons]
    by_cases hlacks : lacks content first = true
    · rw [List.find?_cons_of_pos hlacks] at h
      obtain rfl := Option.some.inj h
      rw [readLayer_lacks hfinds.1 hlacks]
      rfl
    · rw [List.find?_cons_of_neg hlacks] at h
      obtain ⟨settings, hread, -⟩ := exists_readLayer hfinds.1 (Bool.eq_false_iff.2 hlacks)
      rw [hread, ih hfinds.2 h]
      rfl

theorem exists_mapM_readLayer (hfinds : ∀ layer ∈ layers, Finds files layer.path (content layer.path))
    (h : layers.find? (lacks content) = none) :
    ∃ read, layers.mapM (readLayer files) = pure read ∧ List.Forall₂ (Adds content) layers read := by
  induction layers with
  | nil => exact ⟨[], rfl, .nil⟩
  | cons first rest ih =>
    rw [List.forall_mem_cons] at hfinds
    obtain ⟨hfirst, hrest⟩ := List.forall_mem_cons.1 (List.find?_eq_none.1 h)
    obtain ⟨settings, hread, hadds⟩ := exists_readLayer hfinds.1 (Bool.eq_false_iff.2 hfirst)
    obtain ⟨others, hothers, hall⟩ := ih hfinds.2 (List.find?_eq_none.2 hrest)
    refine ⟨settings :: others, ?_, .cons hadds hall⟩
    rw [List.mapM_cons, hread, hothers]
    rfl

end Layers

section Merging

variable {name : SettingName} {x : name.Value} {s : Setting}

theorem holds_defaults (name : SettingName) : (Setting.layer .empty defaults).Holds name name.builtIn := by
  have hmerged : Setting.layer .empty defaults = .table defaults none := by
    simp [Setting.layer, defaults, ofText?_groups, lower_names, Setting.put, Setting.layOver,
      Setting.layAllOver, Setting.set, Setting.get?, Setting.entries, Setting.empty, Entries.get?, Entries.set]
  rw [hmerged]
  cases name <;> exact ⟨_, rfl, none, rfl⟩

theorem holds_layers {content : String → Option (List (String × Toml.Value))} {layers : List Layer}
    {read : List (List (String × Setting))} (hread : List.Forall₂ (Adds content) layers read)
    (hfits : ∀ layer ∈ layers, ∀ value ∈ spelledOut ((content layer.path).getD []), value.Fits)
    (h : s.Holds name x) :
    (read.foldl Setting.layer s).Holds name ((filed content name layers).getLast?.getD x) := by
  induction hread generalizing s x with
  | nil => exact h
  | @cons layer settings layers read hadds _ ih =>
    rw [List.forall_mem_cons] at hfits
    obtain ⟨origin?, rfl⟩ := hadds
    have hlaid := ih hfits.2 (h.layer origin? hfits.1)
    rw [filed, List.flatMap_cons, List.getLast?_append, Option.getD_or]
    exact hlaid

theorem holds_overrides (h : s.Holds name x) (overrides : List Override) :
    ((overrides.map fun o => ([.name o.name.group, .name o.name.key], o.name.scalar o.value)).foldl
      (fun below (path, value) => Setting.put (.scalar value none) path (some below)) s).Holds name
      ((overrides.filterMap (Override.valueOf? name)).getLast?.getD x) := by
  induction overrides generalizing s x with
  | nil => exact h
  | cons o rest ih =>
    obtain ⟨other, value⟩ := o
    rw [List.map_cons, List.foldl_cons]
    by_cases hname : other = name
    · subst hname
      have hvalue : Override.valueOf? other ⟨other, value⟩ = some value := dif_pos rfl
      rw [List.filterMap_cons_some hvalue, List.getLast?_cons, Option.getD_some]
      exact ih (Setting.holds_put s other value)
    · have hvalue : Override.valueOf? name ⟨other, value⟩ = none := dif_neg hname
      rw [List.filterMap_cons_none hvalue]
      exact ih (h.put_of_ne hname value)

end Merging

/-- Whatever files there are and in whatever order they and the overrides are added: the first file that
has to exist and is missing is named in the error. If there is no such file, each setting has the value of
its last override, or else the last value that a file gives, or else the one that is built in. Calls that
add the same files in the same order, and the same overrides in the same order, have the same outcome. -/
theorem build_layers_settings (files : FileAccess Id) (calls : List Call) :
    (∀ content, (∀ layer ∈ calls.filterMap Call.layer?, Finds files layer.path (content layer.path)) →
      (∀ layer, (calls.filterMap Call.layer?).find? (lacks content) = some layer →
        (after calls).build files = throw (.fileNotFound layer.path)) ∧
      ((calls.filterMap Call.layer?).find? (lacks content) = none →
        ∃ settings, (after calls).build files = pure settings ∧ ∀ name, settings.value name =
          (((calls.filterMap Call.override?).filterMap (Override.valueOf? name)).getLast?.or
            (filed content name (calls.filterMap Call.layer?)).getLast?).getD name.builtIn)) ∧
    ∀ calls', calls'.filterMap Call.layer? = calls.filterMap Call.layer? →
      calls'.filterMap Call.override? = calls.filterMap Call.override? →
      (after calls').build files = (after calls).build files := by
  constructor
  · intro content hfinds
    constructor
    · intro layer hlacks
      rw [build, after_eq, overrideKeys_eq, mapM_readLayer_lacks hfinds hlacks]
      rfl
    · intro hlacks
      obtain ⟨read, hmapM, hread⟩ := exists_mapM_readLayer hfinds hlacks
      have hholds : ∀ name, Setting.Holds _ name _ := fun name =>
        holds_overrides (holds_layers hread (fun layer hlayer => (hfinds layer hlayer).fits) (holds_defaults name))
          (calls.filterMap Call.override?)
      obtain ⟨settings, hsettings, hvalue⟩ := Setting.toSettings_of_holds hholds
      refine ⟨settings, ?_, fun name => ?_⟩
      · rw [build, after_eq, overrideKeys_eq, hmapM]
        show ofExcept (merge read _).toSettings = _
        rw [merge, List.foldl_cons, hsettings]
        rfl
      · rw [hvalue, Option.getD_or]
  · intro calls' hlayers hoverrides
    rw [after_eq, after_eq, hlayers, hoverrides]

namespace Sample

def text : String := "[output]\nshow_lines = true\nformat = \"json\"\n"

def fields : List (String × Toml.Value) :=
  [("show_lines", .boolean true), ("format", .string "json")]

def entries : List (String × Toml.Value) :=
  [("output", .table fields)]

def files : FileAccess Id where
  workingDirectory := []
  entry path := if path = localName then .file text.toUTF8.toList else .missing

def content (path : String) : Option (List (String × Toml.Value)) :=
  if path = localName then some entries else none

theorem spelledOut_entries : spelledOut entries = [.table entries] := by
  simp [spelledOut, entries, ofText?_groups, Toml.Value.nested]

theorem under_entries : (Toml.Value.table entries).under "lexer" = [] ∧
    (Toml.Value.table entries).under "output" = [.table fields] := by
  simp [Toml.Value.under, entries, lower_names]

theorem under_fields : (Toml.Value.table fields).under "format" = [.string "json"] ∧
    (Toml.Value.table fields).under "show_lines" = [.boolean true] := by
  simp [Toml.Value.under, fields, lower_names]

theorem fits_entries : ∀ value ∈ spelledOut entries, value.Fits := by
  rw [spelledOut_entries, List.forall_mem_singleton]
  rintro (_ | _ | _)
  · simp [SettingName.group, under_entries]
  · simp only [SettingName.group, SettingName.key, under_entries, under_fields, List.forall_mem_singleton]
    exact ⟨⟨fields, rfl⟩, rfl⟩
  · simp only [SettingName.group, SettingName.key, under_entries, under_fields, List.forall_mem_singleton]
    exact ⟨⟨fields, rfl⟩, rfl⟩

theorem given_entries : SettingName.emitEol.given (.table entries) = [] ∧
    SettingName.format.given (.table entries) = ["json"] ∧
    SettingName.showLines.given (.table entries) = [true] := by
  simp only [SettingName.given, SettingName.group, SettingName.key, under_entries, under_fields,
    List.flatMap_cons, List.flatMap_nil]
  exact ⟨rfl, rfl, rfl⟩

theorem finds_localName : Finds files localName (content localName) := by
  have htext : String.fromUTF8? (ByteArray.mk text.toUTF8.toList.toArray) = some text := by cbv
  have hentries : Toml.ofChars? text.toList = some entries := by cbv
  exact .present rfl htext hentries fits_entries

theorem finds_missing : Finds files "a" (content "a") := by
  have hcandidates : candidates "a" = ["a", "a.toml"] := by cbv
  exact .missing (by rw [hcandidates]; rfl)

end Sample

/-- An override before a file that sets the same, a file that is missing, and one that has to exist. -/
theorem build_layers_settings_localFile :
    let calls := [.override ⟨.format, "yaml"⟩, .file localName, .optionalFile "a"]
    (∃ settings, (after calls).build Sample.files = pure settings ∧ settings.value .emitEol = true ∧
      settings.value .format = "yaml" ∧ settings.value .showLines = true) ∧
    (after [.file "a"]).build Sample.files = throw (.fileNotFound "a") := by
  intro calls
  constructor
  · have hfinds : ∀ layer ∈ calls.filterMap Call.layer?,
        Finds Sample.files layer.path (Sample.content layer.path) :=
      List.forall_mem_cons.2 ⟨Sample.finds_localName, List.forall_mem_singleton.2 Sample.finds_missing⟩
    have hfiled : ∀ name, filed Sample.content name (calls.filterMap Call.layer?) =
        name.given (.table Sample.entries) := by
      intro name
      show (spelledOut Sample.entries).flatMap name.given ++ [] = _
      rw [Sample.spelledOut_entries, List.flatMap_singleton, List.append_nil]
    obtain ⟨hemitEol, hformat, hshowLines⟩ := Sample.given_entries
    obtain ⟨settings, hbuild, hvalue⟩ := ((build_layers_settings Sample.files calls).1 _ hfinds).2 rfl
    refine ⟨settings, hbuild, ?_, ?_, ?_⟩
    · rw [hvalue, hfiled, hemitEol]
      rfl
    · rw [hvalue, hfiled, hformat]
      rfl
    · rw [hvalue, hfiled, hshowLines]
      rfl
  · have hfinds : ∀ layer ∈ [Call.file "a"].filterMap Call.layer?,
        Finds Sample.files layer.path (Sample.content layer.path) :=
      List.forall_mem_singleton.2 Sample.finds_missing
    exact ((build_layers_settings Sample.files [.file "a"]).1 _ hfinds).1 ⟨"a", true⟩ rfl

end Loader

end ParseKit
