import Mathlib.Data.List.Infix
import Mathlib.Data.String.Basic
import Overlay.FileTree
import Overlay.Proofs.Splitting

/-!
# What is written can be read

A path is followed step by step, and steps may lead outwards again.  Without the detours a path
comes to a list of names from the outermost folder, its place.  Following a path succeeds if it
passes through folders only, and then it ends at the node of its place.  Writing puts a node at
a place and keeps every folder that the path passes through, so the same path leads to what was
written.
-/

namespace Overlay

/-! ## Places -/

namespace FileTree

/-- The node that plain names lead to. -/
def descend : FileTree → List String → Option FileTree
  | node, [] => some node
  | .file _, _ :: _ => none
  | .folder entries, name :: rest => (child? name entries).bind fun node => node.descend rest

theorem descend_nil (node : FileTree) : node.descend [] = some node := by
  cases node <;> rfl

theorem descend_append (root : FileTree) (names further : List String) :
    root.descend (names ++ further) =
      (root.descend names).bind fun node => node.descend further := by
  induction names generalizing root with
  | nil => rw [List.nil_append, descend_nil, Option.bind_some]
  | cons name rest ih =>
      cases root with
      | file bytes => rfl
      | folder entries =>
          rw [List.cons_append, descend, descend, Option.bind_assoc]
          simp only [ih]

/-- Names that lead to a folder lead through folders. -/
theorem exists_folder_of_prefix {root : FileTree} {names place : List String}
    (before : place <+: names) {entries : Entries}
    (folder : root.descend names = some (.folder entries)) :
    ∃ entries, root.descend place = some (.folder entries) := by
  obtain ⟨further, rfl⟩ := before
  rw [descend_append] at folder
  obtain ⟨node, found, folder⟩ := Option.bind_eq_some_iff.mp folder
  cases node with
  | folder entries => exact ⟨entries, found⟩
  | file bytes => cases further <;> cases folder

theorem child?_putEntry (name : String) (node : FileTree) (entries : Entries) :
    child? name (putEntry name node entries) = some node := by
  induction entries with
  | nil => simp [putEntry, child?]
  | cons entry rest ih =>
      obtain ⟨other, old⟩ := entry
      by_cases same : other = name
      · simp [putEntry, child?, same]
      · simp [putEntry, child?, same, ih]

theorem child?_putEntry_of_ne {name other : String} (different : other ≠ name) (node : FileTree)
    (entries : Entries) : child? other (putEntry name node entries) = child? other entries := by
  induction entries with
  | nil => simp [putEntry, child?, different.symm]
  | cons entry rest ih =>
      obtain ⟨first, old⟩ := entry
      by_cases same : first = name
      · simp [putEntry, child?, same, different.symm]
      · simp [putEntry, child?, same, ih]

section Results

variable {ε α β : Type} (f : α → β)

theorem isOk_map (result : Except ε α) : (result.map f).isOk = result.isOk := by
  cases result <;> rfl

variable {f}

theorem map_eq_ok_iff {result : Except ε α} {changed : β} :
    result.map f = .ok changed ↔ ∃ value, result = .ok value ∧ f value = changed := by
  cases result with
  | error fault => exact iff_of_false (fun mapped => by cases mapped) (by simp)
  | ok value => simp [Except.map]

end Results

section PutAt

variable {node root changed : FileTree} {place : List String}

theorem putAt_cons (node : FileTree) (name : String) (rest : List String) (entries : Entries) :
    putAt node (name :: rest) (.folder entries) =
      (putAt node rest ((child? name entries).getD empty)).map fun inner =>
        .folder (putEntry name inner entries) := by
  rw [putAt]
  cases putAt node rest ((child? name entries).getD empty) <;> rfl

/-- Whether something can be put at a place does not depend on what it is. -/
theorem isOk_putAt (node other : FileTree) (place : List String) (root : FileTree) :
    (putAt node place root).isOk = (putAt other place root).isOk := by
  induction place generalizing root with
  | nil => rfl
  | cons name rest ih =>
      cases root with
      | file bytes => rfl
      | folder entries => rw [putAt_cons, putAt_cons, isOk_map, isOk_map, ih]

/-- What is put at a place is found there. -/
theorem descend_putAt (put : putAt node place root = .ok changed) :
    changed.descend place = some node := by
  induction place generalizing root changed with
  | nil =>
      cases put
      exact descend_nil _
  | cons name rest ih =>
      cases root with
      | file bytes => cases put
      | folder entries =>
          rw [putAt_cons] at put
          obtain ⟨inner, below, rfl⟩ := map_eq_ok_iff.mp put
          rw [descend, child?_putEntry, Option.bind_some]
          exact ih below

/-- A folder stays a folder, unless something is put in its place or above it. -/
theorem descend_putAt_folder (put : putAt node place root = .ok changed) {names : List String}
    (apart : ¬ place <+: names) {entries : Entries}
    (folder : root.descend names = some (.folder entries)) :
    ∃ entries, changed.descend names = some (.folder entries) := by
  induction place generalizing root changed names with
  | nil => exact (apart List.nil_prefix).elim
  | cons name rest ih =>
      cases root with
      | file bytes => cases put
      | folder outer =>
          rw [putAt_cons] at put
          obtain ⟨inner, below, rfl⟩ := map_eq_ok_iff.mp put
          cases names with
          | nil => exact ⟨_, descend_nil _⟩
          | cons first others =>
              rw [descend] at folder ⊢
              obtain ⟨child, found, folder⟩ := Option.bind_eq_some_iff.mp folder
              by_cases same : first = name
              · subst same
                rw [found, Option.getD_some] at below
                rw [child?_putEntry, Option.bind_some]
                refine ih below (fun behind => apart ?_) folder
                exact List.cons_prefix_cons.mpr ⟨rfl, behind⟩
              · rw [child?_putEntry_of_ne same, found, Option.bind_some]
                exact ⟨entries, folder⟩

end PutAt

/-! ## Paths -/

/-- One step of a path without detours, on the names that lead here, the innermost first. -/
def plain (names : List String) (step : String) : List String :=
  if step = "" ∨ step = "." then names
  else if step = ".." then names.drop 1
  else step :: names

/-- The steps of a path can be followed from where names lead: every step is from a folder. -/
def Passable (root : FileTree) : (names steps : List String) → Prop
  | _, [] => True
  | names, step :: rest =>
      (∃ entries, root.descend names.reverse = some (.folder entries)) ∧
        Passable root (plain names step) rest

theorem passable_concat {root : FileTree} {names steps : List String} {step : String} :
    Passable root names (steps ++ [step]) ↔ Passable root names steps ∧
      ∃ entries, root.descend (steps.foldl plain names).reverse = some (.folder entries) := by
  induction steps generalizing names with
  | nil => simp [Passable]
  | cons first rest ih => simp only [List.cons_append, Passable, ih, and_assoc, List.foldl_cons]

/-- A walk has come to a node along names, and the folders on the way are above it. -/
inductive Located (root : FileTree) : List String → List FileTree → FileTree → Prop where
  | root : Located root [] [] root
  | child {names : List String} {above : List FileTree} {entries : Entries} {name : String}
      {node : FileTree} (outer : Located root names above (.folder entries))
      (found : child? name entries = some node) :
      Located root (name :: names) (.folder entries :: above) node

theorem Located.descend_eq {root node : FileTree} {names : List String} {above : List FileTree}
    (located : Located root names above node) : root.descend names.reverse = some node := by
  induction located with
  | root => exact descend_nil _
  | child outer found ih =>
      rw [List.reverse_cons, descend_append, ih, Option.bind_some, descend, found,
        Option.bind_some, descend_nil]

/-- A walk succeeds if it passes through folders only, and it ends at the place of the path. -/
theorem walk_eq_ok_iff {root node result : FileTree} {names : List String}
    {above : List FileTree} (located : Located root names above node) (steps : List String) :
    walk above node steps = .ok result ↔
      Passable root names steps ∧
        root.descend (steps.foldl plain names).reverse = some result := by
  induction steps generalizing names above node with
  | nil => simp [walk, Passable, located.descend_eq]
  | cons step rest ih =>
      cases node with
      | file bytes =>
          refine iff_of_false (fun walked => by cases walked) ?_
          rintro ⟨⟨⟨entries, folder⟩, _⟩, _⟩
          cases located.descend_eq.symm.trans folder
      | folder entries =>
          have here : ∃ entries, root.descend names.reverse = some (.folder entries) :=
            ⟨entries, located.descend_eq⟩
          rw [walk.eq_def, Passable, and_iff_right here, List.foldl_cons, plain]
          dsimp only
          split
          case isTrue stays => exact ih located
          case isFalse moves =>
            split
            case isTrue outwards =>
              cases located with
              | root => exact ih .root
              | child outer found => exact ih outer
            case isFalse inwards =>
              cases found : child? step entries with
              | some node => exact ih (.child located found)
              | none =>
                  have nowhere : root.descend (step :: names).reverse = none := by
                    rw [List.reverse_cons, descend_append, located.descend_eq, Option.bind_some,
                      descend, found, Option.bind_none]
                  refine iff_of_false (fun walked => by cases walked) ?_
                  rintro ⟨passable, ended⟩
                  cases rest with
                  | nil => cases nowhere.symm.trans ended
                  | cons next further =>
                      obtain ⟨entries, folder⟩ := passable.1
                      cases nowhere.symm.trans folder

/-- Putting something where there is no folder keeps a path passable. -/
theorem Passable.putAt {node root changed : FileTree} {place : List String}
    (put : FileTree.putAt node place root = .ok changed)
    (free : ∀ entries, root.descend place ≠ some (.folder entries)) {names steps : List String}
    (passable : Passable root names steps) : Passable changed names steps := by
  induction steps generalizing names with
  | nil => trivial
  | cons step rest ih =>
      obtain ⟨⟨entries, folder⟩, further⟩ := passable
      refine ⟨descend_putAt_folder put (fun before => ?_) folder, ih further⟩
      obtain ⟨inside, here⟩ := exists_folder_of_prefix before folder
      exact free inside here

end FileTree

namespace FileSystem

open FileTree String

/-! ## Files -/

theorem fromUTF8?_toUTF8 (text : String) : fromUTF8? text.toUTF8 = some text :=
  dif_pos text.isValidUTF8

/-- A file that was written as a text has this text in it. -/
theorem text_file (text : String) : (FileTree.file text.toUTF8).text = .ok text := by
  rw [FileTree.text, fromUTF8?_toUTF8]

theorem place_eq (files : FileSystem) (path : String) (node : FileTree) :
    files.place path node =
      (putAt node (files.plainSteps path) files.root).map fun root => { files with root } := by
  rw [place]
  cases putAt node (files.plainSteps path) files.root <;> rfl

/-- Following a path from the outermost folder. -/
theorem walk_root_eq_ok_iff {root result : FileTree} {steps : List String} :
    walk [] root steps = .ok result ↔
      Passable root [] steps ∧ root.descend (steps.foldl plain []).reverse = some result :=
  walk_eq_ok_iff .root steps

/-- The last step of a path to a new file is a name in a folder. -/
theorem createText_eq_ok {files written : FileSystem} {path text : String}
    (wrote : files.createText path text = .ok written) :
    Passable files.root [] (files.stepsFromRoot path) ∧
      files.place path (.file text.toUTF8) = .ok written := by
  rw [createText] at wrote
  split at wrote
  case h_1 => cases wrote
  case h_2 name outer reversed =>
    have steps : files.stepsFromRoot path = outer.reverse ++ [name] := by
      rw [← List.reverse_cons, ← reversed, List.reverse_reverse]
    split_ifs at wrote
    split at wrote
    case h_1 entries walked =>
      obtain ⟨passable, ended⟩ := walk_root_eq_ok_iff.mp walked
      rw [steps]
      exact ⟨passable_concat.mpr ⟨passable, entries, ended⟩, wrote⟩
    case h_2 => cases wrote
    case h_3 => cases wrote

/-- A file is put in place of a file or of nothing, where its path leads. -/
theorem writeText_eq_ok {files written : FileSystem} {path text : String}
    (wrote : files.writeText path text = .ok written) :
    pathFault? path = none ∧ Passable files.root [] (files.stepsFromRoot path) ∧
      (∀ entries, files.root.descend (files.plainSteps path) ≠ some (.folder entries)) ∧
      files.place path (.file text.toUTF8) = .ok written := by
  rw [writeText] at wrote
  split at wrote
  case h_1 => cases wrote
  case h_2 valid =>
    refine ⟨valid, ?_⟩
    rw [lookup, valid] at wrote
    dsimp only at wrote
    split at wrote
    case h_1 => cases wrote
    case h_2 bytes walked =>
      obtain ⟨passable, ended⟩ := walk_root_eq_ok_iff.mp walked
      refine ⟨passable, fun entries folder => ?_, wrote⟩
      cases ended.symm.trans folder
    case h_3 fault walked =>
      obtain ⟨passable, placed⟩ := createText_eq_ok wrote
      refine ⟨passable, fun entries folder => ?_, placed⟩
      cases walked.symm.trans (walk_root_eq_ok_iff.mpr ⟨passable, folder⟩)

/-- What is written to a file is read from the same path. -/
theorem readText_writeText {files written : FileSystem} {path text : String}
    (wrote : files.writeText path text = .ok written) : written.readText path = .ok text := by
  obtain ⟨valid, passable, free, placed⟩ := writeText_eq_ok wrote
  rw [place_eq] at placed
  obtain ⟨root, put, rfl⟩ := map_eq_ok_iff.mp placed
  have walked : walk [] root (files.stepsFromRoot path) = .ok (.file text.toUTF8) :=
    walk_root_eq_ok_iff.mpr ⟨passable.putAt put free, descend_putAt put⟩
  have looked : FileSystem.lookup { files with root } path = .ok (.file text.toUTF8) := by
    rw [lookup, valid]
    exact walked
  rw [readText, looked]
  exact text_file text

theorem isOk_place (files : FileSystem) (path : String) (node other : FileTree) :
    (files.place path node).isOk = (files.place path other).isOk := by
  rw [place_eq, place_eq, isOk_map, isOk_map, isOk_putAt node other]

/-- Whether a text can be written to a file does not depend on the text. -/
theorem isOk_writeText (files : FileSystem) (path text other : String) :
    (files.writeText path text).isOk = (files.writeText path other).isOk := by
  have placed := isOk_place files path (.file text.toUTF8) (.file other.toUTF8)
  rw [writeText, writeText]
  split
  · rfl
  · split
    · rfl
    · exact placed
    · rw [createText, createText]
      split
      · rfl
      · split_ifs
        · rfl
        · rfl
        · split
          · exact placed
          · rfl
          · rfl

/-! ## Texts as paths -/

/-- Which texts can be paths. -/
theorem isPath_iff {path : String} :
    isPath path = true ↔
      path ≠ "" ∧ '\x00' ∉ path.toList ∧ path.utf8ByteSize ≤ pathLimit := by
  rw [isPath, pathFault?, String.contains_char_eq]
  split
  · next empty => simp [String.isEmpty_iff.mp empty]
  · next filled =>
      have some : path ≠ "" := fun empty => filled (String.isEmpty_iff.mpr empty)
      split
      · next zero => simp [of_decide_eq_true zero]
      · next zeroless =>
          have zeroless := of_decide_eq_false (Bool.eq_false_of_not_eq_true zeroless)
          split
          · next long => simp [Nat.not_le.mpr long]
          · next short => simp [some, zeroless, Nat.not_lt.mp short]

/-- From the outermost folder a mere name leads to the folder that has it. -/
theorem list_of_child {name : String} {entries inner : FileTree.Entries}
    (valid : isPath name = true) (bare : '/' ∉ name.toList) (here : name ≠ ".")
    (above : name ≠ "..") (inside : FileTree.child? name entries = some (.folder inner)) :
    (⟨.folder entries, []⟩ : FileSystem).list name = .ok inner := by
  have noFault : pathFault? name = none := Option.isNone_iff_eq_none.mp valid
  have some : name ≠ "" := by
    rintro rfl
    cases noFault
  have relative : ¬ name.startsWith "/" = true := by
    intro starts
    have slash : '/' ∈ "/".toList := by decide
    exact bare ((String.startsWith_string_iff.mp starts).subset slash)
  have steps : steps name = [name] := by
    rw [steps_eq, List.splitOn_eq_singleton bare]
    simp
  rw [list, lookup, noFault, stepsFromRoot, if_neg relative, steps]
  have walked : FileTree.walk [] (.folder entries) [name] = .ok (.folder inner) := by
    simp [FileTree.walk, some, here, above, inside]
  dsimp only [List.nil_append]
  rw [walked]
  rfl

end FileSystem

end Overlay
