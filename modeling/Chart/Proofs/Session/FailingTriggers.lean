import Chart.Proofs.Run.FailingTriggers
import Chart.Proofs.Session.Configuration

set_option autoImplicit false

/-!
Triggers that end with a configuration error. When the endpoints of the transition are not resolved,
nothing but the journal changes. An error that arises later, while states are left or entered, does
not undo what the transition has already done.
-/

namespace Chart

namespace Machine

/-- A trigger that ends with a configuration error, in a machine with quiet callbacks, leaves every
status, every remembered child and the log as they were if and only if the endpoints could not be
resolved or the transition is internal. In the first case nothing but the journal differs. -/
theorem Reached.intact_iff {terms : Terms} {machine after : Machine}
    (reached : machine.Reached terms) (quietStates : machine.QuietStates True)
    (effects : ∀ id found effect memo, machine.transition? id = some found →
      found.effect = some effect → (effect memo).Quiet True)
    {id : TransitionId} {memo : Value} {error : ConfigurationError}
    (returns : (Request.trigger id memo).Returns machine (.error (.configuration error)) after) :
    (Intact machine after ↔ machine.endpoints id = .error error ∨
      ∃ found, machine.transition? id = some found ∧ found.internal = true) ∧
    (machine.endpoints id = .error error → Run.Reported machine after) := by
  have wired := reached.formed.toWired
  cases resolved : machine.endpoints id with
  | error cause =>
      have ends (depth : Nat) : Ends ((Request.trigger id memo).run depth) machine
          (fun _ _ => False) (Run.Refused (fun error => error = .configuration cause) machine) := by
        unfold Request.run
        rw [ends_discard]
        exact Run.ends_trigger_unresolved resolved
      rcases returns.ends ends with ⟨impossible, _⟩ | ⟨_, isError, reported, _, same, isCause⟩
      · cases impossible
      · cases isError
        cases same
        cases isCause
        obtain ⟨journal, rfl⟩ := reported
        refine ⟨iff_of_true ?_ (Or.inl rfl), fun _ => ⟨journal, rfl⟩⟩
        exact { states := fun _ => rfl, regions := fun _ => rfl, lastActive := fun _ => rfl,
                log := rfl }
  | ok ends =>
      obtain ⟨found, _, _, known, _⟩ := endpoints_eq_ok resolved
      have ends (depth : Nat) : Ends ((Request.trigger id memo).run depth) machine
          (fun _ _ => True) (fun _ after => Intact machine after ↔ found.internal = true) := by
        unfold Request.run
        rw [ends_discard]
        exact Run.ends_trigger_intact (Run.calls_changing True depth) wired
          quietStates known resolved
          fun effect isEffect => effects id found effect memo known isEffect
      rcases returns.ends ends with ⟨impossible, _⟩ | ⟨_, _, intact⟩
      · cases impossible
      · refine ⟨intact.trans ⟨fun internal => Or.inr ⟨found, known, internal⟩, ?_⟩, ?_⟩
        · rintro (impossible | ⟨found', known', internal⟩)
          · cases impossible
          · rw [known] at known'
            rw [Option.some.inj known']
            exact internal
        · intro impossible
          cases impossible

/-- A shop that is closed; it cannot be opened, because its hours have no initial transition. -/
def shopRequests : List Request :=
  [.construct (.createState (.plain "closed")), .construct (.addState ⟨3⟩),
    .construct (.createState (.plain "open")), .construct (.addState ⟨4⟩),
    .construct (.appendRegion ⟨4⟩),
    .construct (.createTransition (.initial "closed")), .construct (.addTransition ⟨0⟩),
    .construct (.createTransition (.simple "unlock" "closed" "open")),
    .construct (.addTransition ⟨1⟩), .start]

def shop : Machine :=
  Request.outcome 8 shopRequests (Machine.new "shop" (.ofStem "auto"))

private theorem shop_plays :
    (Request.play 8 shopRequests (Machine.new "shop" (.ofStem "auto"))).isSome = true ∧
      shop.isPlain = true ∧ shop.isStateActive ⟨3⟩ = true ∧
      shop.endpoints ⟨2⟩ = .error (.unknownTransition ⟨2⟩) ∧
      (Request.trigger ⟨2⟩ .null).refusal 8 shop =
        some (.configuration (.unknownTransition ⟨2⟩)) ∧
      (Request.trigger ⟨1⟩ .null).refusal 8 shop =
        some (.configuration (.missingInitialTransition "open-region-0")) ∧
      ((Request.trigger ⟨1⟩ .null).aftermath 8 shop).isStateActive ⟨3⟩ = false := by
  decide +kernel

private theorem reached_shop : shop.Reached anyTerms :=
  ⟨"shop", .ofStem "auto", (session_outcome shop_plays.1).weaken fun _ _ _ _ _ => trivial⟩

/-- A transition that does not exist changes nothing. -/
theorem shop_intact : shop.Reached anyTerms ∧ shop.Calm True ∧ ∃ after,
    (Request.trigger ⟨2⟩ .null).Returns shop
      (.error (.configuration (.unknownTransition ⟨2⟩))) after ∧ Intact shop after := by
  obtain ⟨_, plain, _, unresolved, refused, _⟩ := shop_plays
  have calm : shop.Calm True := calm_of_isPlain plain
  have returns := returns_aftermath refused
  refine ⟨reached_shop, calm, _, returns, ?_⟩
  exact (Reached.intact_iff reached_shop calm.behaviors calm.effects returns).1.mpr
    (Or.inl unresolved)

/-- The shop is not closed any more when it turns out that it cannot be opened. -/
theorem shop_touched : shop.Reached anyTerms ∧ shop.Calm True ∧ ∃ after,
    (Request.trigger ⟨1⟩ .null).Returns shop
      (.error (.configuration (.missingInitialTransition "open-region-0"))) after ∧
      ¬Intact shop after := by
  obtain ⟨_, plain, active, _, _, refused, left⟩ := shop_plays
  refine ⟨reached_shop, calm_of_isPlain plain, _, returns_aftermath refused, fun intact => ?_⟩
  have stays := intact.states ⟨3⟩
  rw [left, active] at stays
  cases stays

end Machine

end Chart
