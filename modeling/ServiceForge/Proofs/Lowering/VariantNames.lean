/-
This file proves when the variants of a declared enumeration have distinct names. Each text
and each payload gets a name that no variant before it has: marks, or the digits of its
place, are appended until the name is free. A variant for a version is named after the
letters and digits of the version only, so it is told from the others exactly if the
versions are.
-/

import ServiceForge.Proofs.Generation.VariantPaths
import ServiceForge.Proofs.Lowering.Active
import ServiceForge.Proofs.Lowering.Lowered

namespace ServiceForge.Lowering

open ServiceForge.Generation (VersionsApart branchSuffix nodup_branchSuffixes_iff versionOf?)
open ServiceForge.OpenApi (Schema)

/-! ### Names that are not taken -/

theorem nodup_append_fresh {taken : List String} {suffix : String} (visible : suffix ≠ "")
    (distinct : taken.Nodup) (name : String) : (taken ++ [fresh taken suffix name]).Nodup := by
  refine List.nodup_append.mpr ⟨distinct, List.nodup_singleton _, ?_⟩
  rintro other held _ last rfl
  exact fresh_notMem taken visible name (List.mem_singleton.mp last ▸ held)

theorem nodup_textVariants (variants : List (String × String))
    (distinct : (variants.map Prod.fst).Nodup) (texts : List String) :
    ((textVariants variants texts).map Prod.fst).Nodup := by
  induction texts generalizing variants with
  | nil => exact distinct
  | cons text rest inductionHypothesis =>
    refine inductionHypothesis _ ?_
    rw [List.map_append]
    exact nodup_append_fresh (by decide) distinct (textVariantName text)

theorem nodup_payloadsOf (variants : List (String × ValueType))
    (distinct : (variants.map Prod.fst).Nodup) (types : List ValueType) :
    ((payloadsOf variants types).map Prod.fst).Nodup := by
  induction types generalizing variants with
  | nil => exact distinct
  | cons type rest inductionHypothesis =>
    refine inductionHypothesis _ ?_
    rw [List.map_append]
    exact nodup_append_fresh Nat.repr_ne_empty distinct
      (payloadName variants.length type.withoutOption)

/-! ### Names after versions -/

/-- All characters of a number in digits are kept. -/
theorem versionSuffix_toString (number : Nat) :
    Naming.versionSuffix (toString number) = toString number := by
  have kept : (toString number).toList.filter Char.isAlphanum = (toString number).toList :=
    List.filter_eq_self.mpr fun _ member => Text.isAlphanum_of_mem_toString member
  rw [Naming.versionSuffix, kept, String.ofList_toList]

theorem versionSuffix_versionOf (index : Nat) (branch : Schema) :
    Naming.versionSuffix (versionOf index branch) = branchSuffix (branch, index) := by
  unfold versionOf branchSuffix versionOf?
  cases branch.annotation? "min-ver" with
  | none => exact versionSuffix_toString index
  | some version => rfl

theorem map_versionsOf {branches : List Schema} {types : List ValueType} (index : Nat)
    (same : types.length = branches.length) :
    (versionsOf index branches types).map Prod.fst =
      ((branches.zipIdx index).map branchSuffix).map ("V" ++ ·) := by
  induction branches generalizing index types with
  | nil =>
    rw [List.length_eq_zero_iff.mp same]
    rfl
  | cons branch rest inductionHypothesis =>
    cases types with
    | nil => cases same
    | cons type types =>
      rw [versionsOf, List.map_cons, inductionHypothesis _ (Nat.succ.inj same),
        versionSuffix_versionOf]
      rfl

/-- Variants for versions have distinct names exactly if the versions are told apart. -/
theorem nodup_versionsOf_iff {branches : List Schema} {types : List ValueType}
    (same : types.length = branches.length) :
    ((versionsOf 0 branches types).map Prod.fst).Nodup ↔ VersionsApart branches := by
  have prefixed : Function.Injective ("V" ++ ·) := fun _ _ => (String.append_right_inj "V").mp
  rw [map_versionsOf 0 same, List.nodup_map_iff prefixed]
  exact nodup_branchSuffixes_iff branches

/-! ### Names of all variants -/

/-- In every state that is reached, the variants of a declared enumeration have distinct names,
unless they stand for versions; then they have exactly if the versions are told apart. -/
theorem variant_names_distinct_iff {context : Context} {state : State}
    (reachable : Reachable context state) {declared : Declared}
    (member : declared ∈ state.declared) {variants : Variants}
    (enumerates : declared.subtype.shape = .enumeration variants) :
    variants.names.Nodup ↔
      ∀ payloads, variants = .versioned payloads →
        VersionsApart declared.origin.nonNullBranches := by
  cases reachable.made member with
  | choice =>
    cases enumerates
    exact iff_of_true (nodup_textVariants [] List.nodup_nil _) nofun
  | «structure» => cases enumerates
  | @union schema _ types _ _ branches =>
    cases enumerates
    show (variantsOf schema types).names.Nodup ↔ _
    unfold variantsOf
    split
    · exact (nodup_versionsOf_iff branches).trans ⟨fun apart _ _ => apart, fun apart => apart _ rfl⟩
    · exact iff_of_true (nodup_payloadsOf [] List.nodup_nil _) nofun

/-- An integer since one version and a boolean since another. -/
def sizeSince (first second : String) : Schema where
  oneOf := [
    { type := some (.single "integer")
      rest := [(OpenApi.annotationKey, .object [("min-ver", .string first)])] },
    { type := some (.single "boolean")
      rest := [(OpenApi.annotationKey, .object [("min-ver", .string second)])] }]
  rest := [(OpenApi.annotationKey, .object [("discriminator", .string "microversion")])]

/-- The state once such a size was lowered. -/
def sinceState (first second : String) : State :=
  Call.after emptyContext {} (.single (sizeSince first second) "size")

theorem variant_names_distinct_iff_size :
    ∃ declared ∈ (sinceState "2.1" "2.10").declared, ∃ variants,
      declared.subtype.shape = .enumeration variants ∧ variants.names = ["V21", "V210"] ∧
        VersionsApart declared.origin.nonNullBranches := by
  obtain ⟨declared, member, payloads, shape, names⟩ :
      ∃ declared ∈ (sinceState "2.1" "2.10").declared, ∃ payloads,
        declared.subtype.shape = .enumeration (.versioned payloads) ∧
          payloads.map Prod.fst = ["V21", "V210"] :=
    ⟨_, List.mem_singleton.mpr rfl, _, rfl, by decide +kernel⟩
  have apart := variant_names_distinct_iff (.call (.single (sizeSince "2.1" "2.10") "size") .initial)
    member shape
  refine ⟨declared, member, _, shape, names, apart.mp ?_ payloads rfl⟩
  show (payloads.map Prod.fst).Nodup
  rw [names]
  decide

/-- Two variants for the same version have the same name. -/
theorem variant_names_repeated :
    Reachable emptyContext (sinceState "2.1" "2.1") ∧
      ∃ declared ∈ (sinceState "2.1" "2.1").declared, ∃ variants,
        declared.subtype.shape = .enumeration variants ∧ variants.names = ["V21", "V21"] ∧
          ¬ variants.names.Nodup :=
  ⟨.call _ .initial, _, List.mem_singleton.mpr rfl, _, rfl, by decide +kernel⟩

end ServiceForge.Lowering
