import Mathlib.Data.List.Perm.Subperm
import Mathlib.Logic.Relation
import Overlay.Assembly
import Overlay.Proofs.Journal
import Overlay.Proofs.OrderedMap
import Overlay.Proofs.Retention

/-!
# Expanding providers

Expansion works through a list of names, to which it adds what a provider needs, and stops
when it has added as many contributions as its budget allows.  `Expands` describes the
recursion that this stands for, without a list and without a budget: a provider whose key is
new gives its contribution and then all that the providers it needs give, one after the other.
If every provider of a family keeps its key, the budget is never used up.  Hence every call
comes to an end, no key is expanded twice, and what is expanded is closed under needs.
-/

namespace Overlay

open Relation

variable {σ : Type}

/-- The key under which the provider is met when it builds from a supply. -/
def Provider.keyAt (provider : Provider σ) (supply : σ) : ProviderKey :=
  .of provider.label (provider.build supply).1

namespace ProviderFamily

/-- A provider of the family needs another one. -/
def Needs (family : ProviderFamily σ) (name needed : String) : Prop :=
  ∃ provider, family.get? name = some provider ∧ needed ∈ provider.dependencies

/-- Whatever it builds from, a provider of the family has one key, and it needs providers of
the family only. -/
structure Keyed (family : ProviderFamily σ) (key : String → ProviderKey) : Prop where
  stable : ∀ name provider, family.get? name = some provider →
    ∀ supply, provider.keyAt supply = key name
  closed : ∀ name needed, family.Needs name needed → needed ∈ family.keys

theorem mem_keys_of_get? {family : ProviderFamily σ} {name : String} {provider : Provider σ}
    (found : family.get? name = some provider) : name ∈ family.keys :=
  family.mem_keys_iff.mpr ⟨provider, family.get?_eq_some_iff.mp found⟩

theorem exists_of_mem_keys {family : ProviderFamily σ} {name : String}
    (member : name ∈ family.keys) : ∃ provider, family.get? name = some provider := by
  rcases family.mem_keys_iff.mp member with ⟨provider, listed⟩
  exact ⟨provider, family.get?_eq_some_iff.mpr listed⟩

/-- The providers whose keys have not been met. -/
def unmet (family : ProviderFamily σ) (key : String → ProviderKey) (keys : List ProviderKey) :
    List String :=
  family.keys.filter fun name => key name ∉ keys

end ProviderFamily

namespace Expansion

/-- Expanding providers one after the other, from a supply and the keys met so far, gives
the listed contributions with the names of their providers, and leaves a supply and keys. -/
inductive Expands (family : ProviderFamily σ) : List String → σ × List ProviderKey →
    List (String × Contribution) → σ × List ProviderKey → Prop where
  | nil {state : σ × List ProviderKey} : Expands family [] state [] state
  /-- A key that has been met adds nothing, and nothing that its provider needs is looked at. -/
  | known {name : String} {provider : Provider σ} {names : List String} {supply : σ}
      {keys : List ProviderKey} {gained : List (String × Contribution)}
      {after : σ × List ProviderKey} (found : family.get? name = some provider)
      (met : provider.keyAt supply ∈ keys)
      (rest : Expands family names ((provider.build supply).2, keys) gained after) :
      Expands family (name :: names) (supply, keys) gained after
  /-- A provider with a new key comes first, then what it needs, then the other names. -/
  | fresh {name : String} {provider : Provider σ} {names : List String} {supply : σ}
      {keys : List ProviderKey} {below others : List (String × Contribution)}
      {between after : σ × List ProviderKey} (found : family.get? name = some provider)
      (unmet : provider.keyAt supply ∉ keys)
      (needed : Expands family provider.dependencies
        ((provider.build supply).2, provider.keyAt supply :: keys) below between)
      (rest : Expands family names between others after) :
      Expands family (name :: names) (supply, keys)
        ((name, (provider.build supply).1) :: (below ++ others)) after

namespace Expands

variable {family : ProviderFamily σ} {key : String → ProviderKey} {first second names : List String}
  {before between after : σ × List ProviderKey} {gained others : List (String × Contribution)}

/-- Names are expanded one after the other. -/
theorem append (expands : Expands family first before gained between)
    (further : Expands family second between others after) :
    Expands family (first ++ second) before (gained ++ others) after := by
  induction expands with
  | nil => exact further
  | known found met _ ih => exact .known found met (ih further)
  | fresh found unmet needed _ _ ih =>
      rw [List.cons_append, List.cons_append, List.append_assoc]
      exact .fresh found unmet needed (ih further)

theorem split (expands : Expands family (first ++ second) before gained after) :
    ∃ inner between others, gained = inner ++ others ∧
      Expands family first before inner between ∧
      Expands family second between others after := by
  induction first generalizing before gained with
  | nil => exact ⟨[], before, gained, rfl, .nil, expands⟩
  | cons name rest ih =>
      cases expands with
      | known found met restExpands =>
          obtain ⟨inner, between, others, parts, ofRest, ofSecond⟩ := ih restExpands
          exact ⟨inner, between, others, parts, .known found met ofRest, ofSecond⟩
      | fresh found unmet needed restExpands =>
          obtain ⟨inner, between, others, rfl, ofRest, ofSecond⟩ := ih restExpands
          exact ⟨_, between, others, by rw [List.cons_append, List.append_assoc],
            .fresh found unmet needed ofRest, ofSecond⟩

section Keyed

variable (keyed : family.Keyed key)
include keyed

/-- The keys met are those of the providers expanded and those met before. -/
theorem keys_eq (expands : Expands family names before gained after) :
    after.2 = (gained.map fun entry => key entry.1).reverse ++ before.2 := by
  induction expands with
  | nil => rfl
  | known _ _ _ ih => exact ih
  | fresh found _ _ _ below rest =>
      rw [keyed.stable _ _ found] at below
      simp only [List.map_cons, List.map_append, List.reverse_cons, List.reverse_append,
        List.append_assoc, List.singleton_append, rest, below]

theorem mem_keys_iff (expands : Expands family names before gained after) {wanted : ProviderKey} :
    wanted ∈ after.2 ↔ (∃ entry ∈ gained, key entry.1 = wanted) ∨ wanted ∈ before.2 := by
  rw [expands.keys_eq keyed, List.mem_append, List.mem_reverse, List.mem_map]

/-- No key is expanded twice. -/
theorem nodup (expands : Expands family names before gained after) :
    (gained.map fun entry => key entry.1).Nodup ∧
      (gained.map fun entry => key entry.1).Disjoint before.2 := by
  induction expands with
  | nil => exact ⟨List.nodup_nil, List.disjoint_nil_left _⟩
  | known _ _ _ ih => exact ih
  | fresh found unmet needed _ ofNeeded ofRest =>
      rw [keyed.stable _ _ found] at unmet needed ofNeeded
      obtain ⟨belowNodup, belowApart⟩ := ofNeeded
      obtain ⟨othersNodup, othersApart⟩ := ofRest
      rw [needed.keys_eq keyed, List.disjoint_append_right, List.disjoint_reverse_right,
        List.disjoint_cons_right] at othersApart
      rw [List.disjoint_cons_right] at belowApart
      rw [List.map_cons, List.map_append, List.nodup_cons, List.nodup_append', List.mem_append,
        not_or, List.disjoint_cons_left, List.disjoint_append_left]
      exact ⟨⟨⟨belowApart.1, othersApart.2.1⟩, belowNodup, othersNodup,
        List.disjoint_comm.mp othersApart.1⟩, unmet, belowApart.2, othersApart.2.2⟩

theorem subset_keys (expands : Expands family names before gained after) :
    before.2 ⊆ after.2 := by
  rw [expands.keys_eq keyed]
  exact List.subset_append_right _ _

/-- The keys of the names expanded have been met. -/
theorem key_mem (expands : Expands family names before gained after) :
    ∀ name ∈ names, key name ∈ after.2 := by
  induction expands with
  | nil => exact fun _ none => (List.not_mem_nil none).elim
  | known found met rest ih =>
      rw [keyed.stable _ _ found] at met
      exact List.forall_mem_cons.mpr ⟨rest.subset_keys keyed met, ih⟩
  | fresh found unmet needed rest _ ih =>
      rw [keyed.stable _ _ found] at needed
      have own := needed.subset_keys keyed List.mem_cons_self
      exact List.forall_mem_cons.mpr ⟨rest.subset_keys keyed own, ih⟩

/-- Whatever an expanded provider needs has been met. -/
theorem needed_mem (expands : Expands family names before gained after) :
    ∀ entry ∈ gained, ∀ needed, family.Needs entry.1 needed → key needed ∈ after.2 := by
  induction expands with
  | nil => exact fun _ none => (List.not_mem_nil none).elim
  | known _ _ _ ih => exact ih
  | fresh found unmet needed rest ofNeeded ofRest =>
      have kept := rest.subset_keys keyed
      intro entry member
      rcases List.mem_cons.mp member with rfl | later
      · intro target needs
        obtain ⟨provider, alsoFound, member⟩ := needs
        cases Option.some.inj (found.symm.trans alsoFound)
        exact kept (needed.key_mem keyed target member)
      · rcases List.mem_append.mp later with ofBelow | ofOthers
        · exact fun target needs => kept (ofNeeded entry ofBelow target needs)
        · exact ofRest entry ofOthers

end Keyed

/-- What is expanded is needed by one of the names, directly or through others. -/
theorem reached (expands : Expands family names before gained after) :
    ∀ entry ∈ gained, ∃ name ∈ names, ReflTransGen family.Needs name entry.1 := by
  induction expands with
  | nil => exact fun _ none => (List.not_mem_nil none).elim
  | known _ _ _ ih =>
      intro entry member
      obtain ⟨name, listed, path⟩ := ih entry member
      exact ⟨name, List.mem_cons_of_mem _ listed, path⟩
  | fresh found _ _ _ ofNeeded ofRest =>
      intro entry member
      rcases List.mem_cons.mp member with rfl | later
      · exact ⟨_, List.mem_cons_self, .refl⟩
      · rcases List.mem_append.mp later with ofBelow | ofOthers
        · obtain ⟨name, listed, path⟩ := ofNeeded entry ofBelow
          exact ⟨_, List.mem_cons_self, .head ⟨_, found, listed⟩ path⟩
        · obtain ⟨name, listed, path⟩ := ofRest entry ofOthers
          exact ⟨name, List.mem_cons_of_mem _ listed, path⟩

/-- What is expanded was built by the provider under whose name it is listed. -/
theorem built (expands : Expands family names before gained after) :
    ∀ entry ∈ gained, ∃ provider supply, family.get? entry.1 = some provider ∧
      entry.2 = (provider.build supply).1 := by
  induction expands with
  | nil => exact fun _ none => (List.not_mem_nil none).elim
  | known _ _ _ ih => exact ih
  | fresh found _ _ _ ofNeeded ofRest =>
      intro entry member
      rcases List.mem_cons.mp member with rfl | later
      · exact ⟨_, _, found, rfl⟩
      · exact (List.mem_append.mp later).elim (ofNeeded entry) (ofRest entry)

end Expands

/-! ## The budget suffices -/

section Run

variable {family : ProviderFamily σ} {key : String → ProviderKey} {name : String}
  {provider : Provider σ} {rest : List String} {supply : σ} {expansion : Expansion}

theorem value_run_nil (budget : Nat) :
    (run family budget [] supply expansion).value = (expansion, supply) := by
  rw [run]
  rfl

/-- What is said of a provider whose key has been met. -/
def skipped (contribution : Contribution) : Journaled Unit :=
  Journaled.log .debug
    s!"Provider dependency '{contribution.moduleName}' already expanded, skipping"

theorem run_of_met (budget : Nat) (found : family.get? name = some provider)
    (met : provider.keyAt supply ∈ expansion.keys) :
    run family budget (name :: rest) supply expansion =
      (do
        skipped (provider.build supply).1
        run family budget rest (provider.build supply).2 expansion) := by
  rw [run, found]
  exact if_pos met

theorem run_of_unmet (budget : Nat) (found : family.get? name = some provider)
    (unmet : provider.keyAt supply ∉ expansion.keys) :
    run family (budget + 1) (name :: rest) supply expansion =
      run family budget (provider.dependencies ++ rest) (provider.build supply).2
        { contributions := expansion.contributions ++ [(provider.build supply).1]
          keys := provider.keyAt supply :: expansion.keys } := by
  rw [run, found]
  exact if_neg unmet

theorem run_of_exhausted (found : family.get? name = some provider)
    (unmet : provider.keyAt supply ∉ expansion.keys) :
    run family 0 (name :: rest) supply expansion =
      pure (expansion, (provider.build supply).2) := by
  rw [run, found]
  exact if_neg unmet

/-- The expansion with contributions in front of its own. -/
def behind (expansion : Expansion) (before : List Contribution) : Expansion :=
  { expansion with contributions := before ++ expansion.contributions }

/-- What was registered before stays in front and makes no difference to what is added. -/
theorem value_run_behind (family : ProviderFamily σ) (before : List Contribution) (budget : Nat)
    (names : List String) (supply : σ) (expansion : Expansion) :
    (run family budget names supply (expansion.behind before)).value =
      let outcome := (run family budget names supply expansion).value
      (outcome.1.behind before, outcome.2) := by
  induction budget, names, supply, expansion using run.induct family with
  | case1 budget supply expansion => rw [value_run_nil, value_run_nil]
  | case2 budget supply expansion name rest absent ih =>
      rw [run, absent, run, absent]
      exact ih
  | case3 budget supply expansion name rest provider found contribution left built own met ih =>
      obtain ⟨rfl, rfl⟩ := Prod.ext_iff.mp built
      have alsoMet : provider.keyAt supply ∈ (expansion.behind before).keys := met
      rw [run_of_met budget found met, run_of_met budget found alsoMet]
      exact ih
  | case4 supply expansion name rest provider found contribution left built own unmet =>
      obtain ⟨rfl, rfl⟩ := Prod.ext_iff.mp built
      have alsoUnmet : provider.keyAt supply ∉ (expansion.behind before).keys := unmet
      rw [run_of_exhausted found unmet, run_of_exhausted found alsoUnmet]
      rfl
  | case5 supply expansion name rest provider found contribution left built own unmet budget ih =>
      obtain ⟨rfl, rfl⟩ := Prod.ext_iff.mp built
      have alsoUnmet : provider.keyAt supply ∉ (expansion.behind before).keys := unmet
      rw [run_of_unmet budget found unmet, run_of_unmet budget found alsoUnmet, behind,
        List.append_assoc]
      exact ih

/-- Meeting a new key of the family leaves fewer providers to meet. -/
theorem unmet_lt {keys : List ProviderKey} (member : name ∈ family.keys)
    (new : key name ∉ keys) :
    (family.unmet key (key name :: keys)).length < (family.unmet key keys).length := by
  have shrinks : family.unmet key (key name :: keys) =
      (family.unmet key keys).filter fun other => key other ≠ key name := by
    rw [ProviderFamily.unmet, ProviderFamily.unmet, List.filter_filter]
    apply List.filter_congr
    intro other _
    simp only [List.mem_cons, not_or, Bool.decide_and]
  rw [shrinks, List.length_filter_lt_length_iff_exists]
  exact ⟨name, List.mem_filter.mpr ⟨member, decide_eq_true new⟩, by simp⟩

/-- With a budget for all keys that have not been met, the list of names is worked through to
its end, as the recursion is. -/
theorem expands_run (keyed : family.Keyed key) {budget : Nat} {names : List String}
    (listed : ∀ name ∈ names, name ∈ family.keys)
    (enough : (family.unmet key expansion.keys).length ≤ budget) :
    ∃ gained left keys,
      Expands family names (supply, expansion.keys) gained (left, keys) ∧
      (run family budget names supply expansion).value =
        (⟨expansion.contributions ++ gained.map Prod.snd, keys⟩, left) := by
  induction budget, names, supply, expansion using run.induct family with
  | case1 budget supply expansion =>
      exact ⟨[], supply, expansion.keys, .nil,
        by rw [value_run_nil, List.map_nil, List.append_nil]⟩
  | case2 budget supply expansion name rest absent ih =>
      obtain ⟨provider, found⟩ := ProviderFamily.exists_of_mem_keys (listed name List.mem_cons_self)
      rw [absent] at found
      cases found
  | case3 budget supply expansion name rest provider found contribution left built own met ih =>
      obtain ⟨rfl, rfl⟩ := Prod.ext_iff.mp built
      obtain ⟨gained, after, keys, expands, value⟩ := ih (List.forall_mem_cons.mp listed).2 enough
      exact ⟨gained, after, keys, .known found met expands,
        (congrArg Journaled.value (run_of_met budget found met)).trans value⟩
  | case4 supply expansion name rest provider found contribution left built own unmet =>
      obtain ⟨rfl, rfl⟩ := Prod.ext_iff.mp built
      have new : key name ∉ expansion.keys := keyed.stable name provider found supply ▸ unmet
      have fewer := unmet_lt (listed name List.mem_cons_self) new
      exact (Nat.not_lt_zero _ (Nat.lt_of_lt_of_le fewer enough)).elim
  | case5 supply expansion name rest provider found contribution left built own unmet budget ih =>
      obtain ⟨rfl, rfl⟩ := Prod.ext_iff.mp built
      have ownKey := keyed.stable name provider found supply
      have new : key name ∉ expansion.keys := ownKey ▸ unmet
      have fewer := unmet_lt (listed name List.mem_cons_self) new
      have alsoListed : ∀ other ∈ provider.dependencies ++ rest, other ∈ family.keys := by
        intro other member
        rcases List.mem_append.mp member with needed | later
        · exact keyed.closed name other ⟨provider, found, needed⟩
        · exact listed other (List.mem_cons_of_mem _ later)
      have left : (family.unmet key (own :: expansion.keys)).length ≤ budget := by
        have same : own = key name := ownKey
        rw [same]
        omega
      obtain ⟨gained, after, keys, expands, value⟩ := ih alsoListed left
      obtain ⟨below, between, others, rfl, needed, ofRest⟩ := expands.split
      refine ⟨_, after, keys, .fresh found unmet needed ofRest, ?_⟩
      rw [run_of_unmet budget found unmet]
      refine value.trans ?_
      rw [List.map_cons, List.append_assoc, List.singleton_append]

/-- The budget of a call is large enough for any family. -/
theorem unmet_le (family : ProviderFamily σ) (key : String → ProviderKey)
    (keys : List ProviderKey) : (family.unmet key keys).length ≤ 2 * family.size := by
  have most : (family.unmet key keys).length ≤ family.keys.length := List.length_filter_le _ _
  have size : family.keys.length = family.size := List.length_map _
  omega

/-- Expanding one provider is what the recursion does with it alone. -/
theorem expands_add (keyed : family.Keyed key) (member : name ∈ family.keys) (supply : σ)
    (expansion : Expansion) :
    ∃ gained left keys,
      Expands family [name] (supply, expansion.keys) gained (left, keys) ∧
      (add family name supply expansion).value =
        (⟨expansion.contributions ++ gained.map Prod.snd, keys⟩, left) :=
  expands_run keyed (List.forall_mem_singleton.mpr member) (unmet_le family key _)

end Run

end Expansion

/-! ## Calls on a collector -/

namespace Collector

open Expansion

variable {family : ProviderFamily σ} {key : String → ProviderKey} {collector : Collector}

/-- Registers what several providers expand to, one provider after the other. -/
def addProviders (collector : Collector) (family : ProviderFamily σ) :
    List String → σ → Journaled (Collector × σ)
  | [], supply => pure (collector, supply)
  | name :: rest, supply => do
      let (next, left) ← collector.addProvider family name supply
      next.addProviders family rest left

theorem value_addProvider (family : ProviderFamily σ) (name : String) (supply : σ)
    {expansion : Expansion} {left : σ}
    (value : (add family name supply collector.explicit).value = (expansion, left)) :
    (collector.addProvider family name supply).value =
      ({ collector with explicit := expansion }, left) := by
  rw [addProvider, Journaled.value_bind, value]
  rfl

/-- Calls append what the recursion gives and keep everything else. -/
theorem expands_addProviders (keyed : family.Keyed key) {calls : List String}
    (listed : ∀ name ∈ calls, name ∈ family.keys) (collector : Collector) (supply : σ) :
    ∃ gained left keys,
      Expands family calls (supply, collector.explicit.keys) gained (left, keys) ∧
      (collector.addProviders family calls supply).value =
        ({ collector with
            explicit := ⟨collector.explicit.contributions ++ gained.map Prod.snd, keys⟩ },
          left) := by
  induction calls generalizing collector supply with
  | nil => exact ⟨[], supply, _, .nil, by rw [List.map_nil, List.append_nil]; rfl⟩
  | cons name rest ih =>
      rw [List.forall_mem_cons] at listed
      obtain ⟨gained, between, keys, expands, value⟩ :=
        expands_add keyed listed.1 supply collector.explicit
      let next : Collector := { collector with
        explicit := ⟨collector.explicit.contributions ++ gained.map Prod.snd, keys⟩ }
      obtain ⟨others, left, allKeys, further, valueOfRest⟩ := ih listed.2 next between
      refine ⟨gained ++ others, left, allKeys, expands.append further, ?_⟩
      rw [addProviders, Journaled.value_bind, value_addProvider family name supply value]
      refine valueOfRest.trans ?_
      rw [List.map_append, List.append_assoc]

/-- A call whose key has been met adds nothing and needs nothing. -/
theorem addProvider_of_met {name : String} {provider : Provider σ} {supply : σ}
    (found : family.get? name = some provider)
    (met : provider.keyAt supply ∈ collector.explicit.keys) :
    (collector.addProvider family name supply).value =
      (collector, (provider.build supply).2) := by
  apply value_addProvider
  rw [add, run_of_met _ found met, Journaled.value_bind, value_run_nil]

end Collector

/-- What calls on a collector come to, one after the other: `gained` lists the contributions
added, each with the name of its provider. -/
structure ExpandedOnce (family : ProviderFamily σ) (key : String → ProviderKey)
    (collector : Collector) (calls : List String) (supply : σ)
    (gained : List (String × Contribution)) (outcome : Collector × σ) : Prop where
  /-- The calls do what the recursion does: a provider, then what it needs, in order. -/
  recursive : Expansion.Expands family calls (supply, collector.explicit.keys) gained
    (outcome.2, outcome.1.explicit.keys)
  /-- What is gained is appended to what was registered. -/
  appended : outcome.1 = { collector with
    explicit :=
      ⟨collector.explicit.contributions ++ gained.map Prod.snd, outcome.1.explicit.keys⟩ }
  /-- Every contribution comes from the provider beside it. -/
  built : ∀ entry ∈ gained, ∃ provider supply, family.get? entry.1 = some provider ∧
    entry.2 = (provider.build supply).1
  /-- No two contributions have one key, and no contribution has a key met earlier. -/
  once : (gained.map fun entry => key entry.1).Nodup ∧
    ∀ entry ∈ gained, key entry.1 ∉ collector.explicit.keys
  /-- There are no more of them than there are providers. -/
  bounded : gained.length ≤ family.size
  /-- The keys of the providers called have been met afterwards, and so have the keys of
  whatever an expanded provider needs. -/
  complete : (∀ name ∈ calls, key name ∈ outcome.1.explicit.keys) ∧
    ∀ entry ∈ gained, ∀ needed, family.Needs entry.1 needed →
      key needed ∈ outcome.1.explicit.keys
  /-- A further call whose key has been met changes nothing. -/
  repeated : ∀ name ∈ family.keys, key name ∈ outcome.1.explicit.keys → ∀ supply,
    (outcome.1.addProvider family name supply).value.1 = outcome.1
  /-- If no two providers share a key, the providers expanded are those that one of the
  calls leads to. -/
  reachable : collector.explicit.keys = [] →
    (∀ left ∈ family.keys, ∀ right ∈ family.keys, key left = key right → left = right) →
      ∀ name, name ∈ gained.map Prod.fst ↔ ∃ call ∈ calls, ReflTransGen family.Needs call name

namespace Expansion.Expands

variable {family : ProviderFamily σ} {key : String → ProviderKey} {names : List String}
  {before after : σ × List ProviderKey} {gained : List (String × Contribution)}

theorem listed (expands : Expands family names before gained after) :
    ∀ entry ∈ gained, entry.1 ∈ family.keys := by
  intro entry member
  obtain ⟨provider, _, found, _⟩ := expands.built entry member
  exact ProviderFamily.mem_keys_of_get? found

/-- Providers with different keys are not expanded more often than there are providers. -/
theorem length_le (keyed : family.Keyed key) (expands : Expands family names before gained after) :
    gained.length ≤ family.size := by
  have distinct : (gained.map Prod.fst).Nodup := by
    have keys : ((gained.map Prod.fst).map key).Nodup := by
      rw [List.map_map]
      exact (expands.nodup keyed).1
    exact keys.of_map
  have within : gained.map Prod.fst ⊆ family.keys := by
    intro name member
    obtain ⟨entry, inGained, rfl⟩ := List.mem_map.mp member
    exact expands.listed entry inGained
  have least := (List.subperm_of_subset distinct within).length_le
  rwa [List.length_map, OrderedMap.keys, List.length_map] at least

/-- From no keys at all, whatever the names lead to is expanded. -/
theorem mem_of_reachable (keyed : family.Keyed key)
    (apart : ∀ left ∈ family.keys, ∀ right ∈ family.keys, key left = key right → left = right)
    (expands : Expands family names before gained after) (unmet : before.2 = [])
    (known : ∀ name ∈ names, name ∈ family.keys) {call name : String} (called : call ∈ names)
    (path : ReflTransGen family.Needs call name) : name ∈ gained.map Prod.fst := by
  have expanded : ∀ other ∈ family.keys, key other ∈ after.2 → other ∈ gained.map Prod.fst := by
    intro other member met
    rw [expands.mem_keys_iff keyed, unmet] at met
    obtain ⟨entry, inGained, same⟩ := met.resolve_right List.not_mem_nil
    rw [← apart entry.1 (expands.listed entry inGained) other member same]
    exact List.mem_map_of_mem inGained
  induction path with
  | refl => exact expanded call (known call called) (expands.key_mem keyed call called)
  | tail _ needs ih =>
      obtain ⟨entry, inGained, rfl⟩ := List.mem_map.mp ih
      exact expanded _ (keyed.closed _ _ needs) (expands.needed_mem keyed entry inGained _ needs)

end Expansion.Expands

/-- Calls for providers of a family in which every provider keeps its key come to an end, and
expand each key once. -/
theorem addProviders_expandedOnce {family : ProviderFamily σ} {key : String → ProviderKey}
    (keyed : family.Keyed key) {calls : List String}
    (listed : ∀ name ∈ calls, name ∈ family.keys) (collector : Collector) (supply : σ) :
    ∃ gained, ExpandedOnce family key collector calls supply gained
      (collector.addProviders family calls supply).value := by
  obtain ⟨gained, left, keys, expands, value⟩ :=
    Collector.expands_addProviders keyed listed collector supply
  rw [value]
  refine ⟨gained, ?_⟩
  constructor
  case recursive => exact expands
  case appended => rfl
  case built => exact expands.built
  case once =>
    refine ⟨(expands.nodup keyed).1, fun entry member met => ?_⟩
    exact (expands.nodup keyed).2 (List.mem_map_of_mem member) met
  case bounded => exact expands.length_le keyed
  case complete => exact ⟨expands.key_mem keyed, expands.needed_mem keyed⟩
  case repeated =>
    intro name member met further
    obtain ⟨provider, found⟩ := ProviderFamily.exists_of_mem_keys member
    rw [← keyed.stable name provider found further] at met
    rw [Collector.addProvider_of_met found met]
  case reachable =>
    intro unmet apart name
    constructor
    · intro member
      obtain ⟨entry, inGained, rfl⟩ := List.mem_map.mp member
      exact expands.reached entry inGained
    · rintro ⟨call, called, path⟩
      exact expands.mem_of_reachable keyed apart unmet listed called path

/-- An application and its log need each other and a worker, which needs itself and whose
module has no lasting identity. -/
def circularFamily : ProviderFamily Nat where
  entries := [
    ("app", ⟨"app", fun fresh => (.plain "app" [], fresh), ["log", "worker"]⟩),
    ("log", ⟨"log", fun fresh => (.plain "log" ["app"], fresh), ["app", "worker", "worker"]⟩),
    ("worker", ⟨"worker",
      fun fresh => ((Draft.ofBindings ⟨.ofNat 128 fresh⟩ "worker" []).build, fresh + 1),
      ["worker"]⟩)]
  distinct := by decide

/-- The keys of the circular family. -/
def circularKey (name : String) : ProviderKey :=
  if name = "worker" then .provider name else .module (.named name)

/-- Three calls for the circular family. -/
theorem addProviders_circularFamily :
    circularFamily.Keyed circularKey ∧
      (∀ name ∈ ["log", "worker", "app"], name ∈ circularFamily.keys) ∧
      ∃ gained, ExpandedOnce circularFamily circularKey .empty ["log", "worker", "app"] 0 gained
        (Collector.empty.addProviders circularFamily ["log", "worker", "app"] 0).value := by
  have keyed : circularFamily.Keyed circularKey := by
    constructor
    case stable =>
      have stable : ∀ entry ∈ circularFamily.entries, ∀ supply,
          entry.2.keyAt supply = circularKey entry.1 := by
        simp only [circularFamily, List.forall_mem_cons]
        exact ⟨fun _ => rfl, fun _ => rfl, fun _ => rfl, fun _ none => (List.not_mem_nil none).elim⟩
      exact fun name provider found => stable _ (OrderedMap.mem_of_find? found)
    case closed =>
      have closed : ∀ entry ∈ circularFamily.entries, ∀ needed ∈ entry.2.dependencies,
          needed ∈ circularFamily.keys := by
        decide
      rintro name needed ⟨provider, found, member⟩
      exact closed _ (OrderedMap.mem_of_find? found) needed member
  have listed : ∀ name ∈ ["log", "worker", "app"], name ∈ circularFamily.keys := by decide
  exact ⟨keyed, listed, addProviders_expandedOnce keyed listed .empty 0⟩

end Overlay
