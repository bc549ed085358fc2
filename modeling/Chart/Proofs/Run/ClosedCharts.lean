import Chart.Proofs.Run.Emptying
import Chart.Proofs.Run.Links

set_option autoImplicit false

/-!
Closed charts and orderly machines. In a closed chart every name that a transition or a decision
can use at a region under the root means something it may mean there, and every such region has an
initial transition that nothing can reject. An orderly machine is formed, linked and calm, and,
unless failures are permitted, closed and without internal transitions that have no source; it
stays orderly however it runs.
-/

namespace Chart.Machine

/-- One of the regions of the root, or a region within one of them. -/
def Attached (machine : Machine) (region : RegionId) : Prop :=
  ∃ top, machine.ownerOf? top = some root ∧ machine.Within top region

/-- As seen from the region the name means a state, and not an initial one. -/
def Leads (machine : Machine) (region : RegionId) (name : String) : Prop :=
  ∃ state, machine.resolveState? region name = some state ∧
    machine.kindOf? state ≠ some .initial

/-- The target of the transition, if it names one, can be entered from the region. -/
def LeadsOn (machine : Machine) (region : RegionId) (transition : Transition) : Prop :=
  ∀ name, transition.target = some name → machine.Leads region name

/-- The source of the transition, if it names one, is a child of the region and not final. -/
def Starts (machine : Machine) (members : Region) (transition : Transition) : Prop :=
  ∀ name, transition.source = some name →
    ∃ state, Dictionary.find? members.stateIndex name = some state ∧
      machine.kindOf? state ≠ some .final

/-- Nothing can go wrong on the way along the chart. -/
structure Closed (machine : Machine) : Prop where
  initial : ∀ region, machine.Attached region →
    ∃ id transition, Run.firstSourceless? machine region = some id ∧
      machine.transition? id = some transition ∧ transition.guard = none ∧
      machine.LeadsOn region transition
  registered : ∀ region members id transition, machine.Attached region →
    machine.region? region = some members → id ∈ members.transitions →
    machine.transition? id = some transition →
    machine.Starts members transition ∧ machine.LeadsOn region transition
  decided : ∀ region state node decision view, machine.Attached region →
    machine.containerOf? state = some region → machine.state? state = some node →
    node.kind = .choice → node.decision = some decision →
    ∃ target, (decision view).answer = some target ∧ machine.Leads region target

/-- Internal transitions have sources, as the checks of their definitions demand. -/
def Sourced (machine : Machine) : Prop :=
  ∀ id transition, machine.transition? id = some transition → transition.internal = true →
    transition.source ≠ none

namespace SameChart

variable {before after : Machine} (same : SameChart before after)
include same

private theorem attached {region : RegionId} : after.Attached region ↔ before.Attached region := by
  unfold Attached
  simp only [same.ownerOf?, same.within]

theorem leads {region : RegionId} {name : String} :
    after.Leads region name ↔ before.Leads region name := by
  unfold Leads
  simp only [same.resolveState?, same.kindOf?]

private theorem leadsOn {region : RegionId} {transition : Transition} :
    after.LeadsOn region transition ↔ before.LeadsOn region transition := by
  unfold LeadsOn
  simp only [same.leads]

theorem registered_transition? (wired : before.Wired) {region : RegionId} {id : TransitionId}
    (listed : id ∈ before.transitionsOf region) :
    after.transition? id = before.transition? id := by
  obtain ⟨found, present, _⟩ := wired.registered region id listed
  rw [present]
  exact same.kept id found present

theorem find?_transitions (wired : before.Wired) (region : RegionId)
    (test : Transition → Bool) :
    (after.transitionsOf region).find? (fun id => (after.transition? id).any test) =
      (before.transitionsOf region).find? (fun id => (before.transition? id).any test) := by
  rw [same.transitionsOf]
  have agree (listed : List TransitionId)
      (known : ∀ id ∈ listed, after.transition? id = before.transition? id) :
      listed.find? (fun id => (after.transition? id).any test) =
        listed.find? (fun id => (before.transition? id).any test) := by
    induction listed with
    | nil => rfl
    | cons id rest ih =>
        rw [List.find?_cons, List.find?_cons, known id (List.mem_cons_self ..),
          ih fun other member => known other (List.mem_cons_of_mem _ member)]
  exact agree _ fun id listed => same.registered_transition? wired listed

theorem firstSourceless? (wired : before.Wired) (region : RegionId) :
    Run.firstSourceless? after region = Run.firstSourceless? before region :=
  same.find?_transitions wired region fun found => found.source == none

end SameChart

theorem Closed.of_sameChart {before after : Machine} (closed : before.Closed)
    (same : SameChart before after) (wired : before.Wired) : after.Closed where
  initial := by
    intro region attached
    obtain ⟨id, transition, first, present, unguarded, leads⟩ :=
      closed.initial region (same.attached.mp attached)
    refine ⟨id, transition, ?_, same.kept id transition present, unguarded,
      same.leadsOn.mpr leads⟩
    rw [same.firstSourceless? wired]
    exact first
  registered := by
    intro region members id transition attached found listed present
    obtain ⟨members', found', fixed⟩ := same.region?_backward found
    have transitions : members'.transitions = members.transitions :=
      Region.read_eq fixed Region.transitions fun _ => rfl
    have index : members'.stateIndex = members.stateIndex :=
      Region.read_eq fixed Region.stateIndex fun _ => rfl
    rw [← transitions] at listed
    have known : id ∈ before.transitionsOf region := by
      rw [transitionsOf, found']
      exact listed
    rw [same.registered_transition? wired known] at present
    obtain ⟨starts, leads⟩ := closed.registered region members' id transition
      (same.attached.mp attached) found' listed present
    refine ⟨fun name source => ?_, same.leadsOn.mpr leads⟩
    obtain ⟨state, indexed, kind⟩ := starts name source
    rw [← index]
    exact ⟨state, indexed, by rw [same.kindOf?]; exact kind⟩
  decided := by
    intro region state node decision view attached contained found choice decides
    obtain ⟨node', found', fixed⟩ := same.state?_backward found
    have kind : node'.kind = node.kind := StateNode.read_eq fixed StateNode.kind fun _ => rfl
    have decision' : node'.decision = node.decision :=
      StateNode.read_eq fixed StateNode.decision fun _ => rfl
    rw [same.containerOf?] at contained
    obtain ⟨target, answer, leads⟩ := closed.decided region state node' decision view
      (same.attached.mp attached) contained found' (by rw [kind]; exact choice)
      (by rw [decision']; exact decides)
    exact ⟨target, answer, same.leads.mpr leads⟩

theorem Sourced.of_sameChart {before after : Machine} (sourced : before.Sourced)
    (same : SameChart before after) : after.Sourced := by
  intro id transition present internal
  rcases same.chosen id transition present with known | ⟨name, choice, target, region, rfl⟩
  · exact sourced id transition known internal
  · cases internal

/-- In a coherent machine every active region is attached; by induction on the level of its
owner. -/
theorem Coherent.attached {machine : Machine} (coherent : machine.Coherent)
    (wired : machine.Wired) {region : RegionId} (active : machine.isRegionActive region = true) :
    machine.Attached region := by
  obtain ⟨owner, owned, ownerActive⟩ := coherent.owned region active
  induction tall : machine.level owner generalizing region owner with
  | zero =>
      by_cases here : owner = root
      · exact ⟨region, by rw [← here]; exact owned, Within.refl machine region⟩
      · obtain ⟨container, contained, _⟩ := coherent.contained owner ownerActive here
        obtain ⟨above, ownedAbove⟩ := wired.exists_owner contained
        have step := wired.level_succ contained ownedAbove
        omega
  | succ height ih =>
      have notRoot : owner ≠ root := by
        rintro rfl
        rw [wired.level_eq_zero wired.rootFree] at tall
        cases tall
      obtain ⟨container, contained, containerActive⟩ :=
        coherent.contained owner ownerActive notRoot
      obtain ⟨above, ownedAbove⟩ := wired.exists_owner contained
      have step := wired.level_succ contained ownedAbove
      obtain ⟨top, ownedTop, within⟩ := ih containerActive above ownedAbove
        (coherent.owner_active containerActive ownedAbove) (by omega)
      exact ⟨top, ownedTop, within.trans (Within.of_member owned contained)⟩

/-- What holds of the chart, the links and the callbacks of a calm machine whenever it runs. -/
structure Orderly (mayFail : Prop) (machine : Machine) : Prop extends Formed machine where
  linked : machine.Linked
  calm : machine.Calm mayFail
  closed : ¬mayFail → machine.Closed
  sourced : ¬mayFail → machine.Sourced

theorem Orderly.of_changes {mayFail : Prop} {before after : Machine}
    (orderly : before.Orderly mayFail) (changes : Changes before after) :
    after.Orderly mayFail where
  toFormed := orderly.toFormed.of_sameChart changes.sameChart
  linked := changes.linked orderly.linked
  calm := orderly.calm.of_sameChart changes.sameChart
  closed := fun strict =>
    (orderly.closed strict).of_sameChart changes.sameChart orderly.toWired
  sourced := fun strict => (orderly.sourced strict).of_sameChart changes.sameChart

end Chart.Machine
