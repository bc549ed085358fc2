import Chart.Proofs.Forest.Deepening
import Chart.Proofs.Session.Structure

set_option autoImplicit false

/-!
Installing histories. In whatever chart, the installation of a deep history comes to an end, and
when it is answered every region within the given one has exactly one history, a deep one, and a
second call has nothing left to do. A shallow history concerns its own region alone.
-/

namespace Chart.Machine

open Construct (regionAddHistory Descending)

/-- What the answered installation of a deep history leaves behind. -/
structure FullyInstalled (region : RegionId) (history : StateId)
    (before after : Machine) : Prop where
  answer : after.historyOf? region = some history
  within : ∀ nested, after.Within region nested ↔ before.Within region nested
  deep : ∀ nested, after.Within region nested →
    ∃ members marker, after.HasDeepHistory nested members marker
  kept : ∀ nested marker, before.historyOf? nested = some marker →
    after.historyOf? nested = some marker
  /-- A region without history has received one, at the end of its states; no region has lost a
  member or received another one. -/
  members : ∀ nested, after.statesOf nested = before.statesOf nested ∨
    before.Within region nested ∧ before.historyOf? nested = none ∧
      ∃ marker, before.state? marker = none ∧ after.historyOf? nested = some marker ∧
        after.statesOf nested = before.statesOf nested ++ [marker]
  outside : ∀ other members, ¬before.Within region other →
    before.region? other = some members → after.region? other = some members
  level : ∀ state, {outer | after.Surrounds outer state}.ncard = after.level state
  again : regionAddHistory region .deep after = .ok history after

private theorem Formed.fullyInstalled {machine after : Machine} (formed : machine.Formed)
    {region : RegionId}
    {history : StateId} (installed : regionAddHistory region .deep machine = .ok history after) :
    FullyInstalled region history machine after := by
  obtain ⟨adds, deepened, marked⟩ :=
    ends_of_finished (Construct.ends_regionAddHistory_deepened formed region) installed
  have through : discard (regionAddHistory region .deep) machine = .ok () after := by
    simp only [discard, Functor.discard, Functor.mapConst, EStateM.map, Function.comp,
      Function.const,
      installed]
  have descends := ends_of_finished (Construct.descending_regionAddHistory formed region) through
  obtain ⟨_, _, deepBelow⟩ := descends.deepens formed rfl
  have deep (nested : RegionId) (within : after.Within region nested) : after.Deep nested :=
    deepBelow region (List.mem_singleton_self region) nested (adds.within within)
  exact
    { answer := marked
      within := fun nested => adds.within_iff
      deep := fun nested within => adds.formed.hasDeepHistory (deep nested within)
      kept := fun nested marker => adds.grown.historyOf?
      members := deepened.statesOf
      outside := fun other members => deepened.region?_outside
      level := fun state => (adds.formed.toWired.ncard_surrounding state).2
      again := Construct.eq_ok_of_ends
        (Construct.ends_regionAddHistory_settled adds.formed.toWired marked deep) }

/-- However a machine was put together and run, the installation of a deep history ends as its
recursion does, when answered it has reached every region within the given one, and it can be
repeated without effect; the installation of a shallow history leaves all other regions alone. -/
theorem Reached.histories_installed {machine : Machine} (reached : machine.Reached anyTerms)
    (region : RegionId) :
    Descending [region] machine (discard (regionAddHistory region .deep)) ∧
      (∀ history after, regionAddHistory region .deep machine = .ok history after →
        FullyInstalled region history machine after) ∧
      Ends (regionAddHistory region .shallow) machine
        (fun _ after => Elsewhere region machine after) fun _ after => after = machine := by
  refine ⟨Construct.descending_regionAddHistory reached.formed region, ?_, ?_⟩
  · exact fun _ _ installed => reached.formed.fullyInstalled installed
  · exact Construct.ends_regionAddHistory_shallow reached.formed region

/-! ### A chart with some histories -/

/-- A house with a floor with a room. The house remembers where it was left, the room everything,
and the floor nothing. -/
def atticRequests : List Request :=
  [.construct (.createState (.plain "house")), .construct (.addState ⟨3⟩),
    .construct (.appendRegion ⟨3⟩),
    .construct (.createState (.plain "floor")), .construct (.addChildState ⟨3⟩ ⟨6⟩),
    .construct (.appendRegion ⟨6⟩),
    .construct (.createState (.plain "room")), .construct (.addChildState ⟨6⟩ ⟨9⟩),
    .construct (.appendRegion ⟨9⟩),
    .construct (.addHistory ⟨3⟩ .shallow), .construct (.addHistory ⟨9⟩ .deep)]

def attic : Machine :=
  Request.outcome 12 atticRequests (Machine.new "attic" (.ofStem "auto"))

private theorem attic_plays :
    (Request.play 12 atticRequests (Machine.new "attic" (.ofStem "auto"))).isSome = true ∧
      attic.regions.toList.map Region.history = [none, some ⟨12⟩, none, some ⟨13⟩] ∧
      attic.kindOf? ⟨12⟩ = some (.history .shallow) ∧
      attic.kindOf? ⟨13⟩ = some (.history .deep) := by
  decide +kernel

private theorem reached_attic : attic.Reached anyTerms :=
  ⟨"attic", .ofStem "auto", (session_outcome attic_plays.1).weaken fun _ _ _ _ _ => trivial⟩

private theorem attic_deepens : ∃ after, regionAddHistory defaultRegion .deep attic =
    .ok ⟨14⟩ after ∧
    after.regions.toList.map Region.history = [some ⟨14⟩, some ⟨12⟩, some ⟨15⟩, some ⟨13⟩] := by
  have checked : (match regionAddHistory defaultRegion .deep attic with
      | .ok history after => decide (history = ⟨14⟩ ∧ after.regions.toList.map Region.history =
          [some ⟨14⟩, some ⟨12⟩, some ⟨15⟩, some ⟨13⟩])
      | .error _ _ => false) = true := by
    decide +kernel
  cases result : regionAddHistory defaultRegion .deep attic with
  | ok history after =>
      rw [result] at checked
      obtain ⟨rfl, histories⟩ := of_decide_eq_true checked
      exact ⟨after, rfl, histories⟩
  | error error after =>
      rw [result] at checked
      cases checked

/-- Two regions receive histories, one history becomes deep, and one is as it shall be. -/
theorem attic_fullyInstalled :
    attic.Reached anyTerms ∧
      attic.regions.toList.map Region.history = [none, some ⟨12⟩, none, some ⟨13⟩] ∧
      ∃ after, regionAddHistory defaultRegion .deep attic = .ok ⟨14⟩ after ∧
        after.regions.toList.map Region.history = [some ⟨14⟩, some ⟨12⟩, some ⟨15⟩, some ⟨13⟩] ∧
        FullyInstalled defaultRegion ⟨14⟩ attic after := by
  obtain ⟨after, installed, histories⟩ := attic_deepens
  refine ⟨reached_attic, attic_plays.2.1, after, installed, histories, ?_⟩
  exact (Reached.histories_installed reached_attic defaultRegion).2.1 ⟨14⟩ after installed

end Chart.Machine
