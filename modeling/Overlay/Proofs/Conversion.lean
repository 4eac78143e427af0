import Mathlib.Data.List.Induction
import Mathlib.Data.List.Perm.Basic
import Mathlib.Data.Nat.Bitwise
import Overlay.Manifest.Basic
import Overlay.Proofs.Datetime
import Overlay.Proofs.OrderedMap

/-!
# What a manifest contributes

A manifest can always be contributed.  Its bindings are converted by way of plain data,
which in general cannot all be bound, but the keys of TOML tables are texts.  `Becomes` says
kind by kind what a value is bound as; there is exactly one such value, and conversion finds
it.  Everything else that a manifest says stands in the contribution unchanged.
-/

namespace Overlay

/-! ## Tables in the order of their names -/

namespace Value

/-- Names ascend, and each has the value that was given for it last. -/
structure Tabulates (given fields : List (String × Value)) : Prop where
  ascending : fields.Pairwise fun left right => left.1 < right.1
  find?_eq : ∀ name, OrderedMap.find? name fields = OrderedMap.find? name given.reverse

theorem find?_putField (name wanted : String) (value : Value) (fields : List (String × Value)) :
    OrderedMap.find? wanted (putField name value fields) =
      if name = wanted then some value else OrderedMap.find? wanted fields := by
  induction fields with
  | nil => rfl
  | cons field rest ih =>
      rw [putField]
      split
      · next same => simp only [OrderedMap.find?, ← same]; split <;> rfl
      · split
        · rw [OrderedMap.find?]
        · next different _ => rw [OrderedMap.find?, OrderedMap.find?, ih]; grind

theorem mem_putField {name : String} {value : Value} {field : String × Value}
    {fields : List (String × Value)} (member : field ∈ putField name value fields) :
    field = (name, value) ∨ field ∈ fields := by
  induction fields with
  | nil => simpa [putField] using member
  | cons first rest ih => grind [putField]

theorem ascending_putField (name : String) (value : Value) {fields : List (String × Value)}
    (ascending : fields.Pairwise fun left right => left.1 < right.1) :
    (putField name value fields).Pairwise fun left right => left.1 < right.1 := by
  induction fields with
  | nil => simp [putField]
  | cons first rest ih =>
      obtain ⟨behind, tail⟩ := List.pairwise_cons.mp ascending
      rw [putField]
      split_ifs with same smaller
      · exact .cons (same ▸ behind) tail
      · apply List.Pairwise.cons
        · intro field member
          rcases List.mem_cons.mp member with first | later
          · exact first ▸ smaller
          · exact String.lt_trans smaller (behind field later)
        · exact ascending
      · apply List.Pairwise.cons
        · intro field member
          rcases mem_putField member with new | old
          · have larger : first.1 < name := by grind
            simpa [new] using larger
          · exact behind field old
        · exact ih tail

/-- Putting fields at their places, one after the other, tabulates them. -/
theorem tabulates_putFields (given : List (String × Value)) :
    Tabulates given (given.foldl (fun sorted field => putField field.1 field.2 sorted) []) := by
  induction given using List.reverseRecOn with
  | nil => exact ⟨.nil, fun _ => rfl⟩
  | append_singleton earlier last ih =>
      rw [List.foldl_append]
      constructor
      case ascending => exact ascending_putField last.1 last.2 ih.ascending
      case find?_eq =>
        intro name
        simp only [List.foldl_cons, List.foldl_nil, find?_putField, ih.find?_eq,
          List.reverse_append, List.reverse_singleton, List.singleton_append]
        rfl

/-- Fields can be tabulated in one way only. -/
theorem Tabulates.unique {given left right : List (String × Value)}
    (first : Tabulates given left) (second : Tabulates given right) : left = right := by
  have keys : ∀ {fields}, Tabulates given fields → (fields.map Prod.fst).Nodup := by
    intro fields tabulates
    rw [List.Nodup, List.pairwise_map]
    exact tabulates.ascending.imp String.ne_of_lt
  have perm : left.Perm right := by
    rw [List.perm_ext_iff_of_nodup (.of_map _ (keys first)) (.of_map _ (keys second))]
    intro field
    rw [← OrderedMap.find?_eq_some_iff (keys first), ← OrderedMap.find?_eq_some_iff (keys second),
      first.find?_eq, second.find?_eq]
  apply perm.eq_of_pairwise _ first.ascending second.ascending
  intro one other _ _ before after
  exact (String.lt_asymm before after).elim

end Value

/-! ## Finite numbers -/

namespace Binary64

/-- The field of the exponent.  It is all ones in the bits of what is no finite number. -/
def exponent (bits : UInt64) : Nat := bits.toNat / 2 ^ 52 % 2 ^ 11

/-- The mask leaves the field of the exponent. -/
theorem toNat_and_infinity (bits : UInt64) :
    (bits &&& infinity).toNat = exponent bits <<< 52 := by
  have field : infinity.toNat = (2 ^ 11 - 1) <<< 52 := rfl
  rw [UInt64.toNat_and, field, exponent, ← Nat.shiftRight_eq_div_pow,
    ← Nat.and_two_pow_sub_one_eq_mod]
  apply Nat.eq_of_testBit_eq
  intro place
  simp only [Nat.testBit_and, Nat.testBit_shiftLeft, Nat.testBit_shiftRight]
  by_cases high : 52 ≤ place
  · rw [Nat.add_sub_cancel' high, decide_eq_true high, Bool.true_and, Bool.true_and]
  · rw [decide_eq_false high, Bool.false_and, Bool.false_and, Bool.and_false]

theorem isFinite_iff {bits : UInt64} : isFinite bits = true ↔ exponent bits ≠ 2 ^ 11 - 1 := by
  have field : infinity.toNat = (2 ^ 11 - 1) * 2 ^ 52 := rfl
  rw [isFinite, bne_iff_ne, ne_eq, ← UInt64.toNat_inj, toNat_and_infinity, Nat.shiftLeft_eq, field,
    Nat.mul_left_inj (Nat.pow_pos (by decide)).ne']

end Binary64

/-! ## Values kind by kind -/

namespace Toml.Value

mutual

/-- What a TOML value is bound as. -/
inductive Becomes : Toml.Value → Overlay.Value → Prop where
  | text (value : String) : Becomes (.text value) (.text value)
  | integer (value : Int) : Becomes (.integer value) (.int value)
  | boolean (value : Bool) : Becomes (.boolean value) (.bool value)
  | finite {bits : UInt64} (number : Binary64.exponent bits ≠ 2 ^ 11 - 1) :
      Becomes (.float bits) (.float bits)
  | notFinite {bits : UInt64} (other : Binary64.exponent bits = 2 ^ 11 - 1) :
      Becomes (.float bits) .null
  /-- A date-time is known by the key that its spelling stands under. -/
  | datetime {value : Datetime} {text : String} (spells : value.Spells text.toList) :
      Becomes (.datetime value) (.table [("$__toml_private_datetime", .text text)])
  | array {items : List Toml.Value} {values : List Overlay.Value}
      (each : List.Forall₂ Becomes items values) : Becomes (.array items) (.list values)
  | table {entries : List (String × Toml.Value)} {given fields : List (String × Overlay.Value)}
      (each : EachBecomes entries given) (tabulated : Overlay.Value.Tabulates given fields) :
      Becomes (.table entries) (.table fields)

/-- What the entries of a table are bound as, each under its key. -/
inductive EachBecomes :
    List (String × Toml.Value) → List (String × Overlay.Value) → Prop where
  | nil : EachBecomes [] []
  | cons {key : String} {value : Toml.Value} {bound : Overlay.Value}
      {entries : List (String × Toml.Value)} {fields : List (String × Overlay.Value)}
      (first : Becomes value bound) (others : EachBecomes entries fields) :
      EachBecomes ((key, value) :: entries) ((key, bound) :: fields)

end

mutual

theorem becomes_bound (value : Toml.Value) : Becomes value value.bound := by
  match value with
  | .text value => exact .text value
  | .integer value => exact .integer value
  | .boolean value => exact .boolean value
  | .float bits =>
      rw [bound]
      split
      · next number => exact .finite (Binary64.isFinite_iff.mp number)
      · next other => exact .notFinite (not_not.mp (Binary64.isFinite_iff.not.mp other))
  | .datetime value => exact .datetime (Datetime.spells_iff.mpr rfl)
  | .array items => exact .array (becomes_boundAll items)
  | .table entries =>
      exact .table (eachBecomes_boundEntries entries) (Overlay.Value.tabulates_putFields _)

theorem becomes_boundAll (items : List Toml.Value) :
    List.Forall₂ Becomes items (boundAll items) := by
  match items with
  | [] => exact .nil
  | item :: rest => exact .cons (becomes_bound item) (becomes_boundAll rest)

theorem eachBecomes_boundEntries (entries : List (String × Toml.Value)) :
    EachBecomes entries (boundEntries entries) := by
  match entries with
  | [] => exact .nil
  | (_, value) :: rest => exact .cons (becomes_bound value) (eachBecomes_boundEntries rest)

end

mutual

theorem eq_bound {value : Toml.Value} {result : Overlay.Value} (becomes : Becomes value result) :
    result = value.bound := by
  match value, becomes with
  | .text _, .text _ => rfl
  | .integer _, .integer _ => rfl
  | .boolean _, .boolean _ => rfl
  | .float _, .finite number => rw [bound, if_pos (Binary64.isFinite_iff.mpr number)]
  | .float _, .notFinite other =>
      rw [bound, if_neg fun number => Binary64.isFinite_iff.mp number other]
  | .datetime value, .datetime spells =>
      rw [bound, ← String.toList_injective (Datetime.spells_iff.mp spells)]
      rfl
  | .array items, .array each => rw [bound, eq_boundAll each]
  | .table entries, .table each tabulated =>
      rw [eq_boundEntries each] at tabulated
      rw [bound, Overlay.Value.tableOf,
        tabulated.unique (Overlay.Value.tabulates_putFields (boundEntries entries))]

theorem eq_boundAll {items : List Toml.Value} {results : List Overlay.Value}
    (each : List.Forall₂ Becomes items results) : results = boundAll items := by
  match items, each with
  | [], .nil => rfl
  | item :: rest, .cons first others => rw [boundAll, eq_bound first, eq_boundAll others]

theorem eq_boundEntries {entries : List (String × Toml.Value)}
    {results : List (String × Overlay.Value)} (each : EachBecomes entries results) :
    results = boundEntries entries := by
  match entries, each with
  | [], .nil => rfl
  | (_, value) :: rest, .cons first others =>
      rw [boundEntries, eq_bound first, eq_boundEntries others]

end

/-- A value is bound as one value. -/
theorem becomes_iff {value : Toml.Value} {result : Overlay.Value} :
    Becomes value result ↔ result = value.bound :=
  ⟨eq_bound, fun same => same ▸ becomes_bound value⟩

mutual

/-- The keys of TOML tables are texts, so nothing is in the way of binding a value. -/
theorem bound_datum (value : Toml.Value) : value.datum.bound = .ok value.bound := by
  match value with
  | .text value => rfl
  | .integer value => rfl
  | .boolean value => rfl
  | .float bits => rfl
  | .datetime value => rfl
  | .array items => rw [datum, Datum.bound, boundAll_datumAll items]; rfl
  | .table entries => rw [datum, Datum.bound, boundFields_datumEntries entries]; rfl

theorem boundAll_datumAll (items : List Toml.Value) :
    Datum.boundAll (datumAll items) = .ok (boundAll items) := by
  match items with
  | [] => rfl
  | item :: rest =>
      rw [datumAll, Datum.boundAll, bound_datum item, boundAll_datumAll rest]
      rfl

theorem boundFields_datumEntries (entries : List (String × Toml.Value)) :
    Datum.boundFields (datumEntries entries) = .ok (boundEntries entries) := by
  match entries with
  | [] => rfl
  | (name, value) :: rest =>
      rw [datumEntries, Datum.boundFields, bound_datum value, boundFields_datumEntries rest]
      rfl

end

/-- Other data may have a list for a key, however deep inside. -/
example : (Datum.list [.table [(some "key", .table [(none, .bool true)])]]).bound =
    .error .keyNotText := rfl

end Toml.Value

/-! ## Contributions of manifests -/

namespace ModuleUnit

/-- Configuring a unit is extending the binder by what it binds. -/
theorem configure_eq_extend (unit : ModuleUnit) (binder : Binder) :
    unit.configure binder = binder.extend unit.bindings := rfl

/-- A unit that binds no key twice binds exactly its pairs. -/
theorem entries_configure_empty {unit : ModuleUnit}
    (distinct : (unit.bindings.map Prod.fst).Nodup) :
    (unit.configure .empty).entries = unit.bindings :=
  OrderedMap.entries_ofList distinct

/-- A key that the unit does not bind keeps its value. -/
theorem get?_configure_of_not_mem {unit : ModuleUnit} {key : String}
    (unbound : key ∉ unit.bindings.map Prod.fst) (binder : Binder) :
    (unit.configure binder).get? key = binder.get? key := by
  have absent : OrderedMap.find? key unit.bindings.reverse = none := by
    simpa [OrderedMap.find?_eq_none_iff] using unbound
  rw [configure_eq_extend, OrderedMap.get?_extend, absent, Option.none_or]

/-- Binding moves no key. -/
theorem keys_prefix_configure (unit : ModuleUnit) (binder : Binder) :
    binder.keys <+: (unit.configure binder).keys := by
  rw [configure_eq_extend, OrderedMap.keys_extend]
  exact List.prefix_append _ _

end ModuleUnit

namespace Draft

/-- Declaring settings one after the other touches nothing else. -/
theorem applyAll_configs (draft : Draft) (pairs : List (String × String)) :
    draft.applyAll (pairs.map fun (path, label) => .config path label) =
      { draft with configs := draft.configs.extend pairs } := by
  induction pairs generalizing draft with
  | nil => rfl
  | cons pair rest ih => exact ih _

end Draft

namespace Manifest

/-- A manifest says what its contribution is, but for a provider. -/
theorem contributing_eq (manifest : Manifest) (unit : ModuleUnit) :
    manifest.contributing unit =
      { unit := unit
        id := .named manifest.name
        name := some manifest.name
        provider := none
        description := manifest.description
        deprecated := manifest.deprecated
        overrides := .ofList (manifest.overrides.map .named)
        configs := .ofList manifest.configs.entries } := by
  rw [contributing]
  dsimp only
  rw [Draft.applyAll_configs]
  cases manifest.description with
  | none => rfl
  | some text => rfl

theorem toContribution_eq (manifest : Manifest) :
    manifest.toContribution =
      { unit := manifest.unit
        id := .named manifest.name
        name := some manifest.name
        provider := none
        description := manifest.description
        deprecated := manifest.deprecated
        overrides := .ofList (manifest.overrides.map .named)
        configs := .ofList manifest.configs.entries } :=
  contributing_eq manifest manifest.unit

theorem bindEntry_eq (manifest : Manifest) :
    manifest.bindEntry = fun entry => pure (entry.1, entry.2.bound) := by
  funext entry
  rw [bindEntry, Toml.Value.bound_datum]
  rfl

/-- The keys of a manifest's unit are those of its bindings. -/
theorem keys_unit (manifest : Manifest) :
    manifest.unit.bindings.map Prod.fst = manifest.bindings.keys := by
  rw [unit, List.map_map]
  rfl

theorem nodup_keys_unit (manifest : Manifest) :
    (manifest.unit.bindings.map Prod.fst).Nodup := by
  rw [keys_unit]
  exact manifest.bindings.distinct

/-- No binding is in the way of contributing a manifest. -/
theorem contribute_eq (manifest : Manifest) :
    manifest.contribute = .ok manifest.toContribution := by
  have kept := OrderedMap.entries_ofList manifest.nodup_keys_unit
  have bound : manifest.bindings.entries.mapM manifest.bindEntry = .ok manifest.unit.bindings := by
    rw [bindEntry_eq, List.mapM_pure]
    rfl
  rw [contribute, bound]
  change Except.ok
    (manifest.contributing ⟨(OrderedMap.ofList manifest.unit.bindings).entries, false⟩) = _
  rw [kept]
  rfl

/-- The contribution says what the manifest says, and nothing else. -/
structure SaidBy (manifest : Manifest) (contribution : Contribution) : Prop where
  identity : contribution.id = .named manifest.name
  name : contribution.name = some manifest.name
  moduleName : contribution.moduleName = manifest.name
  description : contribution.description = manifest.description
  deprecated : contribution.deprecated = manifest.deprecated
  provider : contribution.provider = none
  /-- Of a module that is named several times the first mention counts. -/
  overrides : contribution.overrides.elements = (firsts id manifest.overrides).map .named
  configs : contribution.configs = manifest.configs
  /-- With nothing bound before, the bindings are those of the manifest, in order, and no
  other value would do for one of them. -/
  bindings : List.Forall₂
    (fun entry bound => entry.1 = bound.1 ∧
      ∀ value, entry.2.Becomes value ↔ value = bound.2)
    manifest.bindings.entries (contribution.unit.configure .empty).entries
  untouched : ∀ (binder : Binder) (key : String), key ∉ manifest.bindings.keys →
    (contribution.unit.configure binder).get? key = binder.get? key
  unmoved : ∀ binder : Binder, binder.keys <+: (contribution.unit.configure binder).keys

/-- Every manifest can be contributed, whatever it binds, and its contribution says what it
says. -/
theorem contribute_saidBy (manifest : Manifest) :
    ∃ contribution, manifest.contribute = .ok contribution ∧
      manifest.SaidBy contribution := by
  refine ⟨manifest.toContribution, manifest.contribute_eq, ?_⟩
  rw [toContribution_eq]
  constructor
  case identity => rfl
  case name => rfl
  case moduleName => rfl
  case description => rfl
  case deprecated => rfl
  case provider => rfl
  case overrides =>
    have keys : (fun name => (Identity.named name).key) = fun name => .named (id name) := rfl
    rw [OrderedSet.elements_ofList, firsts_map, keys,
      firsts_of_injective fun _ _ => Identity.Key.named.inj]
  case configs => exact manifest.configs.ofList_entries
  case bindings =>
    rw [ModuleUnit.entries_configure_empty manifest.nodup_keys_unit, unit,
      List.forall₂_map_right_iff, List.forall₂_same]
    intro entry _
    exact ⟨rfl, fun _ => Toml.Value.becomes_iff⟩
  case untouched =>
    intro binder key unbound
    rw [← keys_unit] at unbound
    exact ModuleUnit.get?_configure_of_not_mem unbound binder
  case unmoved => exact ModuleUnit.keys_prefix_configure manifest.unit

end Manifest

end Overlay
