import RowMapper.Proofs.Script.Course

/-!
# Targets in a run

What was found for the associations of a class that is finalized stays in the rest of a run, unless
the class shares an association with another one that was not finalized yet (`found_targets_stay`).
Finding the targets of that other class writes what it finds into the association that both have, so
a class that inherits from another one can change what was found for it
(`inheriting_class_changes_a_target`).
-/
namespace RowMapper.Script

open World (Finalized InTable Steady)

theorem Operation.run_steady (session : String) (operation : Operation) :
    (operation.run session).Obeys Steady := by
  intro w
  obtain ⟨events, hhappens, -⟩ := (operation.run_orderly session).told w
  exact (hhappens.lives fun _ _ h => h).steady

/-- **What was found stays.**  From any moment of a run to any later one a class that is finalized
stays so and keeps its associations, and what was found for each of them stays: always if the target
was given as a class, and otherwise unless another class that was not finalized yet has the very
same association. -/
theorem found_targets_stay (logStatements : Bool) (drafts : List Draft) (steps : List Step) :
    (moments steps (start logStatements drafts)).Pairwise fun w w' => ∀ id index,
      Finalized id w → InTable id w index → index < w.registry.associations.length →
        Finalized id w' ∧ InTable id w' index ∧
        AssociationKept (∃ other, other ≠ id ∧ InTable other w' index ∧ ¬Finalized other w)
          (w.registry.associationAt index) (w'.registry.associationAt index) := by
  have hsteady : (moments steps (start logStatements drafts)).Pairwise Steady :=
    moments_pairwise (fun _ _ h => .of_registry h.registry_eq) Operation.run_steady steps _
  refine hsteady.imp fun h id index hfinal hin hlt => ⟨h.finalized hfinal, h.inTable hin, ?_⟩
  refine (h.kept index hlt).mono ?_
  rintro ⟨other, hshared, hnot⟩
  exact ⟨other, fun heq => hnot (heq ▸ hfinal), hshared, hnot⟩

/-- An owner of pets, where the pets are found by name. -/
def petOwners : List Draft :=
  let many : AttributeDraft := .association "hasMany"
    [("target", .plain (.str "Pet")), ("foreign_key", .plain (.str "owner_id"))]
  [{ name := "Pet", key := "Pet", settings := some [("table_name", .plain (.str "pets"))] },
   { name := "Owner", key := "Owner", settings := some [("table_name", .plain (.str "owners"))],
     attributes := [("pets", many)] }]

/-- The pets of owners are found; then another module defines pets of its own and a class that
inherits from owners, and finds the pets of that class. -/
theorem inheriting_class_changes_a_target :
    let named (name : String) : Option (List (String × Term)) :=
      some [("table_name", .plain (.str name))]
    let other : Draft :=
      { name := "Pet", key := "shop.Pet", home := "shop", settings := named "goods" }
    let inheriting : Draft :=
      { name := "Shop", key := "Shop", home := "shop", bases := ["Owner"], settings := named "shops" }
    let finding : List Step := [.single {} (.finalize "Owner")]
    let steps : List Step :=
      finding ++ [.single {} (.define other), .single {} (.define inheriting),
        .single {} (.finalize "Shop")]
    let w := (runSteps finding (start false petOwners)).2
    let w' := (runSteps steps (start false petOwners)).2
    ∃ id index, Finalized id w ∧ InTable id w index ∧
      (w.registry.associationAt index).resolved.map (·.home) = some "app" ∧
      (w'.registry.associationAt index).resolved.map (·.home) = some "shop" := by
  intro named other inheriting finding steps w w'
  exact ⟨4, 0, by decide +kernel⟩

end RowMapper.Script
