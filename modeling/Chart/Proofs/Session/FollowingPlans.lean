import Chart.Proofs.Run.FollowingPlans
import Chart.Proofs.Session.Joins

set_option autoImplicit false

/-!
Plans in a session. As long as all calls that run a calm machine are answered, whatever a call plans
to enter is entered: automatic completions, choices, histories and joins on the way never reach a
part of the chart for which a step is still planned.
-/

namespace Chart

private theorem Run.Served.plansFollowed {mayFail : Prop} {leaves : StateId → Prop}
    {before after : Machine}
    (served : Run.Served (Run.KeepsPlans before) leaves before after)
    (orderly : before.Orderly mayFail)
    (rested : before.Rested) : ∃ events, Machine.PlansFollowed before after events := by
  have atStart := Machine.PlansFollowed.refl before
  rcases served with uneventful | ⟨_, settled⟩ | ⟨state, _, _, ready, empty, touches,
    emptied, settled⟩
  · obtain ⟨events, noneBegun⟩ := uneventful.toStill.noneBegun
    exact ⟨events, atStart.after_noneBegun noneBegun uneventful.noMisstep⟩
  · obtain ⟨⟨events, _, plansFollowed⟩, _⟩ :=
      settled.relates ⟨⟨_, rested.joining, atStart⟩, rested.due⟩
    exact ⟨events, plansFollowed⟩
  · obtain ⟨events, noneBegun, joining, due⟩ := Run.joining_left orderly rested touches emptied
    have left := atStart.after_noneBegun noneBegun (touches.noMisstep.trans emptied.noMisstep)
    obtain ⟨⟨events, _, plansFollowed⟩, _⟩ := settled.relates ⟨⟨events, joining, left⟩, due⟩
    exact ⟨events, plansFollowed⟩

namespace Machine

/-- An answered call that runs a calm machine skips no planned step and finds nothing already as a
step would make it. It enters a state, other than the root, only while the region around the state
is active, and opens a region only while its owner is active; and when it has entered a composite
state, it opens all regions of that state before it enters anything inside them. -/
theorem Reached.plans_followed {machine after : Machine} {request : Request}
    (reached : machine.Reached answeredRuns) (calm : machine.Calm True)
    (runs : request.runs = true) (returns : request.Returns machine (.ok ()) after) :
    ∃ events, machine.PlansFollowed after events := by
  have orderly := reached.formed.orderly reached.linked calm
  have served := returns.served runs (Run.respects_keepsPlans True machine) orderly
    (reached.coherent calm)
  exact served.plansFollowed orderly (reached.rested calm)

/-- A state with two regions, in one of which stands another composite state. -/
def towerRequests : List Request :=
  [.construct (.createState (.plain "ground")), .construct (.addState ⟨3⟩),
    .construct (.createState (.plain "tower")), .construct (.addState ⟨4⟩),
    .construct (.appendRegion ⟨4⟩), .construct (.appendRegion ⟨4⟩),
    .construct (.createState (.plain "floor")), .construct (.regionAddState ⟨1⟩ ⟨9⟩),
    .construct (.appendRegion ⟨9⟩),
    .construct (.createState (.plain "room")), .construct (.regionAddState ⟨3⟩ ⟨12⟩),
    .construct (.createState (.plain "lift")), .construct (.regionAddState ⟨2⟩ ⟨13⟩),
    .construct (.createTransition (.initial "ground")), .construct (.addTransition ⟨0⟩),
    .construct (.createTransition (.initial "lift")), .construct (.regionAddTransition ⟨2⟩ ⟨1⟩),
    .construct (.createTransition (.simple "climb" "ground" "room")),
    .construct (.addTransition ⟨2⟩), .start]

def tower : Machine :=
  Request.outcome 8 towerRequests (Machine.new "tower" (.ofStem "auto"))

def climbedTower : Machine :=
  Request.outcome 8 [.trigger ⟨2⟩ .null] tower

def towardsRoom : List Event :=
  (climbedTower.journal.toList.drop tower.journal.size).take 9

/-- The room is entered after all regions of the tower and of the floor around it were opened. -/
theorem tower_plans_followed :
    tower.Reached answeredRuns ∧ tower.Calm True ∧
      (Request.trigger ⟨2⟩ .null).Returns tower (.ok ()) climbedTower ∧
      Event.notice (.entered ⟨4⟩ "tower") ∈ towardsRoom ∧
      Event.notice (.entered ⟨9⟩ "floor") ∈ towardsRoom ∧
      (∃ late, Told tower climbedTower
        (towardsRoom ++ .notice (.entered ⟨12⟩ "room") :: late)) ∧
      tower.MayEnter tower.journal.toList towardsRoom ⟨12⟩ := by
  have reached : tower.Reached answeredRuns :=
    ⟨"tower", .ofStem "auto", (session_outcome (by decide +kernel)).weaken
      fun _ _ _ _ call _ => call.2⟩
  have calm : tower.Calm True := calm_of_isPlain (by decide +kernel)
  have returns : (Request.trigger ⟨2⟩ .null).Returns tower (.ok ()) climbedTower :=
    returns_outcome (by decide +kernel)
  have told : ∃ late, Told tower climbedTower
      (towardsRoom ++ .notice (.entered ⟨12⟩ "room") :: late) := by
    refine ⟨(climbedTower.journal.toList.drop tower.journal.size).drop 10, ?_⟩
    unfold Told
    decide +kernel
  obtain ⟨events, plansFollowed⟩ := Reached.plans_followed reached calm rfl returns
  obtain ⟨late, isTold⟩ := told
  have mayEnter :=
    plansFollowed.entered towardsRoom late ⟨12⟩ "room" (plansFollowed.told.unique isTold)
  exact ⟨reached, calm, returns, by decide +kernel, by decide +kernel, ⟨late, isTold⟩, mayEnter⟩

end Machine

end Chart
