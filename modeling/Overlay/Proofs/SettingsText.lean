import Mathlib.Data.List.Nodup
import Overlay.Proofs.FileTree
import Overlay.Proofs.JsonText
import Overlay.Proofs.Splitting
import Overlay.Settings.Reading

/-!
# Settings survive being written

Settings are written as a record whose fields have different names, and a record is read field by
field, so each section is read back from what is written for it.  An absent section is written as
null, as is an absent filter, and an absent section is not read as one without a filter.
-/

namespace Overlay

/-! ## Records -/

namespace SettingsFormat

variable {members : List (String × Json)}

/-- A name that is given once gives its value. -/
theorem named_of_nodup (distinct : (members.map Prod.fst).Nodup) {member : String × Json}
    (listed : member ∈ members) : named members member.1 = some (some member.2) := by
  have only : members.filter (fun other => other.1 = member.1) = [member] := by
    induction members with
    | nil => cases listed
    | cons first rest ih =>
        obtain ⟨fresh, distinct⟩ := List.nodup_cons.mp distinct
        rcases List.mem_cons.mp listed with rfl | later
        · have none : rest.filter (fun other => other.1 = member.1) = [] := by
            refine List.filter_eq_nil_iff.mpr fun other inside => ?_
            have different : other.1 ≠ member.1 :=
              fun same => fresh (same ▸ List.mem_map_of_mem inside)
            simpa using different
          simp [none]
        · have different : first.1 ≠ member.1 :=
            fun same => fresh (same ▸ List.mem_map_of_mem later)
          simpa [different] using ih distinct later
  rw [named, only]

/-- A record with one value for each field gives these values. -/
theorem fields_record {names : List String} (complete : members.map Prod.fst = names)
    (distinct : names.Nodup) :
    json.fields names (.record members) = some (members.map fun member => some member.2) := by
  subst complete
  have read : json.members? (.record members) = some (members.map id) :=
    Json.mapM_map_eq_some fun _ _ => rfl
  have values : (members.map Prod.fst).mapM (named members) =
      some (members.map fun member => some member.2) :=
    Json.mapM_map_eq_some fun _ listed => named_of_nodup distinct listed
  have noItems : json.items? (.record members) = none := rfl
  rw [fields, noItems, read, List.map_id]
  exact values

/-! ## Sections -/

theorem modules_toJson (settings : ModuleSettings) :
    json.modules settings.toJson = some settings := by
  rw [ModuleSettings.toJson, modules, fields_record (by rfl) (by decide)]
  rfl

theorem logging_toJson (settings : LogSettings) :
    json.logging settings.toJson = some settings := by
  have filter : json.nullable json.text? (.optionalText settings.filter) =
      some settings.filter := by
    cases settings.filter <;> rfl
  rw [LogSettings.toJson, logging, fields_record (by rfl) (by decide)]
  simp only [Option.bind_eq_bind, Option.bind_some, List.map_cons, List.map_nil, given, filter]
  rfl

/-- An absent section is read back as absent. -/
theorem nullable_logging (section? : Option LogSettings) :
    json.nullable json.logging ((section?.map LogSettings.toJson).getD .null) = some section? := by
  cases section? with
  | none => rfl
  | some settings => exact congrArg (Option.map some) (logging_toJson settings)

theorem settings_toJson (settings : Settings) :
    json.settings settings.toJson = some settings := by
  rw [Settings.toJson, SettingsFormat.settings, fields_record (by rfl) (by decide)]
  simp only [Option.bind_eq_bind, Option.bind_some, List.map_cons, List.map_nil, given,
    modules_toJson, nullable_logging]

end SettingsFormat

/-! ## Texts -/

theorem ModuleSettings.plain_toJson (settings : ModuleSettings) : settings.toJson.Plain := by
  apply Json.plain_record
  simp [Json.Plain.bool, Json.Plain.text]

theorem LogSettings.plain_toJson (settings : LogSettings) : settings.toJson.Plain := by
  apply Json.plain_record
  simp [Json.Plain.bool, Json.plain_optionalText]

namespace Settings

theorem plain_toJson (settings : Settings) : settings.toJson.Plain := by
  apply Json.plain_record
  cases settings.logging with
  | none => simp [ModuleSettings.plain_toJson, Json.Plain.null]
  | some logging => simp [ModuleSettings.plain_toJson, logging.plain_toJson]

/-- Settings are read back from the text that is written for them. -/
theorem ofJsonText?_render (settings : Settings) : ofJsonText? settings.render = some settings := by
  have parsed : Json.parse? settings.render = some settings.toJson := by
    have read := Json.parse?_render settings.plain_toJson Json.blank_nil
    rwa [String.ofList_nil, String.append_empty] at read
  rw [ofJsonText?, parsed, Option.bind_some, SettingsFormat.settings_toJson]

theorem render_injective : Function.Injective render := by
  intro settings other same
  have read := congrArg ofJsonText? same
  rw [ofJsonText?_render, ofJsonText?_render] at read
  exact Option.some.inj read

/-! ## Files -/

section Files

variable {settings : Settings} {files written : FileSystem} {path : String}

theorem save_eq_ok_iff :
    settings.save files path = .ok written ↔
      files.writeText path settings.render = .ok written := by
  rw [save]
  cases files.writeText path settings.render <;> simp [Except.mapError]

/-- Settings can be saved wherever any text can be written. -/
theorem exists_saved {text : String} (possible : (files.writeText path text).isOk = true) :
    ∃ written, settings.save files path = .ok written := by
  rw [FileSystem.isOk_writeText files path text settings.render] at possible
  cases wrote : files.writeText path settings.render with
  | error fault =>
      rw [wrote] at possible
      cases possible
  | ok written => exact ⟨written, save_eq_ok_iff.mpr wrote⟩

theorem loadJson_of_save (saved : settings.save files path = .ok written) :
    loadJson written path = .ok settings := by
  have read := FileSystem.readText_writeText (save_eq_ok_iff.mp saved)
  rw [loadJson, read]
  dsimp only [Except.mapError, bind, Except.bind]
  rw [ofJsonText?_render]

end Files

/-- Settings come back from a file as they went in. -/
structure Kept (settings : Settings) : Prop where
  /-- The text that is written for them is theirs alone. -/
  own : ∀ other : Settings, other.render = settings.render → other = settings
  /-- The text is accepted. -/
  accepted : ofJsonText? settings.render = some settings
  /-- They can be saved wherever any text can be written. -/
  saved : ∀ files path text, (files.writeText path text).isOk = true →
    ∃ written, settings.save files path = .ok written
  loaded : ∀ files path written, settings.save files path = .ok written →
    loadJson written path = .ok settings
  /-- A name that ends in the right way is enough to find the format. -/
  recognized : ∀ files path written, settings.save files path = .ok written →
    extension? path = some "json" → load written path = .ok settings

/-- All settings come back from a file, whatever their texts contain.  No logging section, one
without a filter and one with an empty filter are written as three different texts. -/
theorem kept_and_distinct :
    (∀ settings : Settings, settings.Kept) ∧
      ∀ (modules : ModuleSettings) (jsonFormat : Bool),
        ([⟨modules, none⟩, ⟨modules, some ⟨none, jsonFormat⟩⟩,
          ⟨modules, some ⟨some "", jsonFormat⟩⟩].map render).Nodup := by
  refine ⟨fun settings => ?_, fun modules jsonFormat => ?_⟩
  · refine ⟨fun other same => render_injective same, settings.ofJsonText?_render,
      fun files path text => exists_saved, fun files path written => loadJson_of_save, ?_⟩
    intro files path written saved named
    rw [load, named]
    exact loadJson_of_save saved
  · apply List.Nodup.map render_injective
    simp

/-- A new file in an empty folder. -/
example : ∃ written, save {} ⟨.empty, []⟩ "s.json" = .ok written ∧
    load written "s.json" = .ok {} := by
  have steps : FileSystem.steps "s.json" = ["s.json"] := by
    rw [FileSystem.steps_eq]
    decide
  have valid : FileSystem.pathFault? "s.json" = none :=
    Option.isNone_iff_eq_none.mp (FileSystem.isPath_iff.mpr (by decide +kernel))
  have fromRoot : FileSystem.stepsFromRoot ⟨.empty, []⟩ "s.json" = ["s.json"] := by
    rw [FileSystem.stepsFromRoot, steps]
    simp
  have writable : (FileSystem.writeText ⟨.empty, []⟩ "s.json" "").isOk = true := by
    rw [FileSystem.writeText, FileSystem.lookup, FileSystem.createText, FileSystem.place,
      FileSystem.plainSteps, valid, fromRoot]
    decide
  obtain ⟨written, saved⟩ := exists_saved writable
  refine ⟨written, saved, ?_⟩
  have named : extension? "s.json" = some "json" := by
    rw [extension?, fileName?, steps]
    decide
  rw [load, named]
  exact loadJson_of_save saved

end Settings

end Overlay
