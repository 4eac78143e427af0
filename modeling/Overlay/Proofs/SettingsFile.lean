import Mathlib.Data.List.TakeWhile
import Mathlib.Data.String.Basic
import Overlay.Settings.Reading

/-!
# Files of settings

The name of a file says in which format its text spells settings.  A name with another extension,
or with none, says nothing, and then the file is not even read; a file that cannot be read has no
settings in it, nor has one whose text spells none.
-/

namespace Overlay

namespace Settings

/-! ## Extensions -/

/-- The last name of a path ends with a dot and an extension that stand behind something. -/
def HasExtension (path extension : String) : Prop :=
  ∃ stem, stem ≠ "" ∧ fileName? path = some (stem ++ "." ++ extension)

/-- Characters without a dot that stand behind a dot are what comes first from behind. -/
theorem takeWhile_reverse_eq {chars stem behind : List Char}
    (split : chars = stem ++ '.' :: behind) (last : '.' ∉ behind) :
    chars.reverse.takeWhile (· ≠ '.') = behind.reverse ∧
      chars.reverse.dropWhile (· ≠ '.') = '.' :: stem.reverse := by
  have plain : ∀ char ∈ behind.reverse, decide (char ≠ '.') = true := by
    intro char member
    apply decide_eq_true
    rintro rfl
    exact last (List.mem_reverse.mp member)
  have reversed : chars.reverse = behind.reverse ++ '.' :: stem.reverse := by
    rw [split, List.reverse_append, List.reverse_cons, List.append_assoc, List.singleton_append]
  rw [reversed, List.takeWhile_append_of_pos plain, List.dropWhile_append_of_pos plain]
  simp

/-- The extension of a path is what stands behind the last dot. -/
theorem extension?_eq_some_iff {path extension : String} :
    extension? path = some extension ↔
      HasExtension path extension ∧ '.' ∉ extension.toList := by
  rw [extension?, HasExtension]
  cases fileName? path with
  | none => simp
  | some name =>
      simp only [Option.bind_eq_bind, Option.bind_some, Option.some.injEq]
      constructor
      · intro found
        split at found
        · next dot first before dropped =>
            cases found
            have isDot := List.head?_dropWhile_not (fun char : Char => decide (char ≠ '.'))
              name.toList.reverse
            have whole := List.takeWhile_append_dropWhile (p := fun char => decide (char ≠ '.'))
              (l := name.toList.reverse)
            rw [dropped] at isDot whole
            have same : dot = '.' := by simpa using isDot
            refine ⟨⟨String.ofList (first :: before).reverse, by simp, ?_⟩, ?_⟩
            · apply String.toList_injective
              have forward := congrArg List.reverse whole
              rw [List.reverse_reverse] at forward
              refine forward.symm.trans ?_
              simp [same]
            · rw [String.toList_ofList, List.mem_reverse]
              intro member
              have plain := List.mem_takeWhile_imp member
              exact of_decide_eq_true plain rfl
        · cases found
      · rintro ⟨⟨stem, some, rfl⟩, last⟩
        have split : (stem ++ "." ++ extension).toList =
            stem.toList ++ '.' :: extension.toList := by simp
        obtain ⟨taken, dropped⟩ := takeWhile_reverse_eq split last
        obtain ⟨first, before, reversed⟩ := List.exists_cons_of_ne_nil
          (show stem.toList.reverse ≠ [] by simpa using some)
        rw [taken, dropped, reversed]
        simp

/-! ## What a file spells -/

/-- A file of settings has them in its text, in the format that its extension names. -/
inductive WrittenIn (files : FileSystem) (path : String) : Settings → Prop where
  | json {text : String} {settings : Settings} (named : HasExtension path "json")
      (read : files.readText path = .ok text) (spelled : ofJsonText? text = some settings) :
      WrittenIn files path settings
  | toml {text : String} {settings : Settings} (named : HasExtension path "toml")
      (read : files.readText path = .ok text) (spelled : ofTomlText? text = some settings) :
      WrittenIn files path settings

/-- A file has no settings in it: its extension names no format, it cannot be read, or its text
spells no settings in its format. -/
inductive Unloadable (files : FileSystem) (path : String) : SettingsFault → Prop where
  | unsupported (notJson : ¬ HasExtension path "json") (notToml : ¬ HasExtension path "toml") :
      Unloadable files path (.unsupported (extension? path) path)
  | unreadable {fault : ReadFault} (named : HasExtension path "json" ∨ HasExtension path "toml")
      (unread : files.readText path = .error fault) : Unloadable files path (.unreadable fault)
  | malformedJson {text : String} (named : HasExtension path "json")
      (read : files.readText path = .ok text) (unspelled : ofJsonText? text = none) :
      Unloadable files path .malformedJson
  | malformedToml {text : String} (named : HasExtension path "toml")
      (read : files.readText path = .ok text) (unspelled : ofTomlText? text = none) :
      Unloadable files path .malformedToml

section Load

variable {files : FileSystem} {path : String} {settings : Settings} {fault : SettingsFault}

theorem hasExtension_json_iff : HasExtension path "json" ↔ extension? path = some "json" := by
  rw [extension?_eq_some_iff, and_iff_left (by decide)]

theorem hasExtension_toml_iff : HasExtension path "toml" ↔ extension? path = some "toml" := by
  rw [extension?_eq_some_iff, and_iff_left (by decide)]

theorem load_of_json (named : HasExtension path "json") :
    load files path = loadJson files path := by
  rw [load, hasExtension_json_iff.mp named]
  rfl

theorem load_of_toml (named : HasExtension path "toml") :
    load files path = loadToml files path := by
  rw [load, hasExtension_toml_iff.mp named]
  rfl

/-- What is in a file decides what is loaded from it. -/
theorem load_of_writtenIn (written : WrittenIn files path settings) :
    load files path = .ok settings := by
  cases written with
  | json named read spelled =>
      rw [load_of_json named, loadJson, read]
      dsimp only [Except.mapError, bind, Except.bind]
      rw [spelled]
  | toml named read spelled =>
      rw [load_of_toml named, loadToml, read]
      dsimp only [Except.mapError, bind, Except.bind]
      rw [spelled]

theorem load_of_unloadable (unloadable : Unloadable files path fault) :
    load files path = .error fault := by
  cases unloadable with
  | unsupported notJson notToml =>
      rw [hasExtension_json_iff] at notJson
      rw [hasExtension_toml_iff] at notToml
      rw [load]
      split
      · contradiction
      · contradiction
      · rfl
  | unreadable named unread =>
      rcases named with json | toml
      · rw [load_of_json json, loadJson, unread]
        rfl
      · rw [load_of_toml toml, loadToml, unread]
        rfl
  | malformedJson named read unspelled =>
      rw [load_of_json named, loadJson, read]
      dsimp only [Except.mapError, bind, Except.bind]
      rw [unspelled]
  | malformedToml named read unspelled =>
      rw [load_of_toml named, loadToml, read]
      dsimp only [Except.mapError, bind, Except.bind]
      rw [unspelled]

theorem writtenIn_or_unloadable (files : FileSystem) (path : String) :
    (∃ settings, WrittenIn files path settings) ∨ ∃ fault, Unloadable files path fault := by
  by_cases json : HasExtension path "json"
  · cases read : files.readText path with
    | error fault => exact .inr ⟨_, .unreadable (.inl json) read⟩
    | ok text =>
        cases spelled : ofJsonText? text with
        | none => exact .inr ⟨_, .malformedJson json read spelled⟩
        | some settings => exact .inl ⟨_, .json json read spelled⟩
  by_cases toml : HasExtension path "toml"
  · cases read : files.readText path with
    | error fault => exact .inr ⟨_, .unreadable (.inr toml) read⟩
    | ok text =>
        cases spelled : ofTomlText? text with
        | none => exact .inr ⟨_, .malformedToml toml read spelled⟩
        | some settings => exact .inl ⟨_, .toml toml read spelled⟩
  exact .inr ⟨_, .unsupported json toml⟩

theorem load_eq_ok_iff : load files path = .ok settings ↔ WrittenIn files path settings := by
  constructor
  · intro loaded
    rcases writtenIn_or_unloadable files path with ⟨other, written⟩ | ⟨fault, unloadable⟩
    · cases loaded.symm.trans (load_of_writtenIn written)
      exact written
    · cases loaded.symm.trans (load_of_unloadable unloadable)
  · exact load_of_writtenIn

theorem load_eq_error_iff : load files path = .error fault ↔ Unloadable files path fault := by
  constructor
  · intro failed
    rcases writtenIn_or_unloadable files path with ⟨settings, written⟩ | ⟨other, unloadable⟩
    · cases failed.symm.trans (load_of_writtenIn written)
    · cases failed.symm.trans (load_of_unloadable unloadable)
      exact unloadable
  · exact load_of_unloadable

/-- Where there is no file, nothing is loaded. -/
theorem exists_load_eq_error_of_absent (absent : files.isPresent path = false) :
    ∃ fault, load files path = .error fault := by
  have unread : ∀ text, files.readText path ≠ .ok text := by
    intro text read
    rw [FileSystem.isPresent] at absent
    rw [FileSystem.readText] at read
    cases looked : files.lookup path with
    | error fault =>
        rw [looked] at read
        cases read
    | ok node =>
        rw [looked] at absent
        cases absent
  rcases writtenIn_or_unloadable files path with ⟨settings, written⟩ | ⟨fault, unloadable⟩
  · cases written with
    | json _ read _ => exact (unread _ read).elim
    | toml _ read _ => exact (unread _ read).elim
  · exact ⟨fault, load_of_unloadable unloadable⟩

end Load

end Settings

end Overlay
