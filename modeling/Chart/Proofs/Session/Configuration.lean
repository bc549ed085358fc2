import Chart.Proofs.Session.Operation

set_option autoImplicit false

/-!
The configuration of a calm machine. However it is put together and run, its active states and
regions stay coherent, also after requests that fail half way. As long as no failing request has
changed a status, no active region is left without an active normal child.
-/

namespace Chart

namespace Machine

theorem Coherent.of_grown {before after : Machine} (coherent : before.Coherent)
    (grown : Grown before after) (wired : after.Wired) : after.Coherent where
  owned := by
    intro region active
    rw [grown.isRegionActive] at active
    obtain ⟨owner, owned, ownerActive⟩ := coherent.owned region active
    exact ⟨owner, grown.ownerOf? owned, by rw [grown.isStateActive]; exact ownerActive⟩
  contained := by
    intro state active notRoot
    rw [grown.isStateActive] at active
    obtain ⟨region, contained, regionActive⟩ := coherent.contained state active notRoot
    exact ⟨region, grown.containerOf? contained, by rw [grown.isRegionActive]; exact regionActive⟩
  single := by
    intro region one other containedOne containedOther activeOne activeOther
    have earlier {state : StateId} (contained : after.containerOf? state = some region)
        (active : after.isStateActive state = true) :
        before.containerOf? state = some region ∧ before.isStateActive state = true := by
      rw [grown.isStateActive] at active
      obtain ⟨container, containedBefore, _⟩ :=
        coherent.contained state active (wired.not_inside_root (.member contained))
      rw [grown.containerOf? containedBefore] at contained
      obtain rfl := Option.some.inj contained
      exact ⟨containedBefore, active⟩
    obtain ⟨beforeOne, wasOne⟩ := earlier containedOne activeOne
    obtain ⟨beforeOther, wasOther⟩ := earlier containedOther activeOther
    exact coherent.single region one other beforeOne beforeOther wasOne wasOther

private theorem Childless.of_grown {before after : Machine} {region : RegionId}
    (childless : after.Childless region)
    (grown : Grown before after) : before.Childless region := by
  refine ⟨by rw [← grown.isRegionActive]; exact childless.1, fun state contained normal => ?_⟩
  rw [← grown.isStateActive]
  obtain ⟨node, found, _⟩ := kindOf?_eq_some.mp normal
  exact childless.2 state (grown.containerOf? contained)
    ((grown.normal_iff (by rw [found]; rfl)).mpr normal)

theorem inactive_new (name : String) (names : NameSource) :
    (∀ state, (Machine.new name names).isStateActive state = false) ∧
      ∀ region, (Machine.new name names).isRegionActive region = false := by
  obtain ⟨bare, grown, noRegions, _, _, _, onlyRoot⟩ := grown_new name names
  constructor
  · intro state
    rw [grown.isStateActive]
    unfold isStateActive
    cases found : bare.state? state with
    | none => rfl
    | some node =>
        rw [onlyRoot state node found]
        rfl
  · intro region
    rw [grown.isRegionActive]
    unfold isRegionActive region?
    rw [noRegions]
    rfl

theorem coherent_new (name : String) (names : NameSource) : (Machine.new name names).Coherent where
  owned := by
    intro region active
    rw [(inactive_new name names).2] at active
    cases active
  contained := by
    intro state active
    rw [(inactive_new name names).1] at active
    cases active
  single := by
    intro _ one _ _ _ active
    rw [(inactive_new name names).1] at active
    cases active

private theorem not_childless_new (name : String) (names : NameSource) (region : RegionId) :
    ¬(Machine.new name names).Childless region := by
  intro childless
  have active := childless.1
  rw [(inactive_new name names).2] at active
  cases active

theorem exists_child_of_not_childless {machine : Machine} {region : RegionId}
    (active : machine.isRegionActive region = true) (childless : ¬machine.Childless region) :
    ∃ child, machine.containerOf? child = some region ∧ machine.kindOf? child = some .normal ∧
      machine.isStateActive child = true := by
  by_contra none'
  refine childless ⟨active, fun state contained normal => ?_⟩
  cases isActive : machine.isStateActive state with
  | false => rfl
  | true => exact absurd ⟨state, contained, normal, isActive⟩ none'

theorem Coherent.activeChildren {machine : Machine} (coherent : machine.Coherent)
    (wired : machine.Wired) (region : RegionId) :
    ((machine.statesOf region).filter machine.isStateActive).length ≤ 1 := by
  have nodup := (wired.listedOnce region).filter machine.isStateActive
  have alone : ∀ one ∈ (machine.statesOf region).filter machine.isStateActive,
      ∀ other ∈ (machine.statesOf region).filter machine.isStateActive, one = other := by
    intro one memberOne other memberOther
    obtain ⟨listedOne, activeOne⟩ := List.mem_filter.mp memberOne
    obtain ⟨listedOther, activeOther⟩ := List.mem_filter.mp memberOther
    exact coherent.single region one other ((wired.listed one region).mpr listedOne)
      ((wired.listed other region).mpr listedOther) activeOne activeOther
  generalize (machine.statesOf region).filter machine.isStateActive = children at nodup alone
  cases children with
  | nil => exact Nat.zero_le 1
  | cons first rest =>
      cases rest with
      | nil => exact Nat.le_refl 1
      | cons second rest =>
          have same := alone first (List.mem_cons_self ..) second
            (List.mem_cons_of_mem _ (List.mem_cons_self ..))
          rw [same] at nodup
          exact absurd (List.mem_cons_self ..) (List.nodup_cons.mp nodup).1

end Machine

/-- Calls that run the machine are answered or change no status. -/
def smooth : Terms := fun before request answer after =>
  request.runs = true → answer = .ok () ∨
    (∀ state, after.isStateActive state = before.isStateActive state) ∧
      ∀ region, after.isRegionActive region = before.isRegionActive region

section Calls

variable {request : Request} {before after : Machine} {answer : Except MachineError Unit}

theorem Machine.Formed.orderly (formed : before.Formed) (linked : before.Linked)
    (calm : before.Calm True) : before.Orderly True where
  toFormed := formed
  linked := linked
  calm := calm
  closed := fun strict => absurd trivial strict
  sourced := fun strict => absurd trivial strict

theorem Request.Returns.served {related : Machine → Machine → Prop}
    (returns : request.Returns before (.ok ()) after) (runs : request.runs = true)
    (respects : Run.Respects True related) (orderly : before.Orderly True)
    (coherent : before.Coherent) : Run.Served related (request.Leaves before) before after := by
  rcases returns.ends (ends_served respects runs orderly coherent) with
    ⟨_, served⟩ | ⟨_, isError, _⟩
  · exact served
  · cases isError

variable (returns : request.Returns before answer after) (formed : before.Formed)
variable (linked : before.Linked) (calm : before.Calm True) (configured : before.Coherent)
include returns formed linked calm configured

theorem Request.Returns.coherent : after.Coherent := by
  cases runs : request.runs with
  | false =>
      rcases returns.prepares formed runs with becomes | still
      · exact configured.of_grown becomes.grown becomes.formed.toWired
      · exact still.coherent configured
  | true =>
      have ends := Request.ends_served (Run.respects_trivial True) runs
        (formed.orderly linked calm) configured
      rcases returns.ends ends with ⟨_, served⟩ | ⟨_, _, aborted | refused⟩
      · exact served.coherent configured
      · exact aborted.1
      · exact refused.1.coherent configured

private theorem Request.Returns.childless (meets : smooth before request answer after)
    {region : RegionId}
    (childless : after.Childless region) : before.Childless region := by
  cases runs : request.runs with
  | false =>
      rcases returns.prepares formed runs with becomes | still
      · exact childless.of_grown becomes.grown
      · exact still.childless childless
  | true =>
      rcases meets runs with isOk | ⟨states, regions⟩
      · rw [isOk] at returns
        have served := returns.served runs (Run.respects_trivial True)
          (formed.orderly linked calm) configured
        exact served.childless formed.toWired childless
      · exact childless.of_statuses (returns.changes runs).sameChart states regions

end Calls

/-! ### Sessions -/

namespace Machine

theorem Reached.coherent {terms : Terms} {machine : Machine} (reached : machine.Reached terms)
    (calm : machine.Calm True) : machine.Coherent := by
  obtain ⟨name, names, session⟩ := reached
  exact session.keeps_calmly (formed_new name names) (linked_new name names) calm
    Machine.Coherent (coherent_new name names)
    fun _ _ _ _ formed linked calmFirst returns _ configured =>
      returns.coherent formed linked calmFirst configured

theorem Reached.not_childless {machine : Machine} (reached : machine.Reached smooth)
    (calm : machine.Calm True) (region : RegionId) : ¬machine.Childless region := by
  obtain ⟨name, names, session⟩ := reached
  have holds := session.keeps_calmly (formed_new name names) (linked_new name names) calm
    (fun current => current.Coherent ∧ ∀ waiting, ¬current.Childless waiting)
    ⟨coherent_new name names, not_childless_new name names⟩
    fun first request answer last formed linked calmFirst returns meets kept =>
      ⟨returns.coherent formed linked calmFirst kept.1, fun waiting childless =>
        kept.2 waiting (returns.childless formed linked calmFirst kept.1 meets childless)⟩
  exact holds.2 region

/-- A machine with quiet callbacks, however it is put together and run, has a coherent
configuration; as long as its failing calls change no status, every active region has exactly one
active child, and that is a normal one. -/
theorem Reached.coherent_configuration {machine : Machine} (reached : machine.Reached anyTerms)
    (calm : machine.Calm True) :
    (∀ region, machine.isRegionActive region = true →
      ∃ owner, machine.ownerOf? region = some owner ∧ machine.isStateActive owner = true) ∧
    (∀ state, machine.isStateActive state = true → state ≠ root →
      ∃ region, machine.containerOf? state = some region ∧
        machine.isRegionActive region = true) ∧
    (∀ region, ((machine.statesOf region).filter machine.isStateActive).length ≤ 1) ∧
    (machine.Reached smooth → ∀ region, machine.isRegionActive region = true →
      ∃ child, (machine.statesOf region).filter machine.isStateActive = [child] ∧
        machine.kindOf? child = some .normal) := by
  have coherent := reached.coherent calm
  have wired := reached.formed.toWired
  refine ⟨coherent.owned, coherent.contained, coherent.activeChildren wired, ?_⟩
  intro smoothly region active
  obtain ⟨child, contained, normal, childActive⟩ :=
    exists_child_of_not_childless active (smoothly.not_childless calm region)
  have listed : child ∈ (machine.statesOf region).filter machine.isStateActive :=
    List.mem_filter.mpr ⟨(wired.listed child region).mp contained, childActive⟩
  have short := coherent.activeChildren wired region
  generalize (machine.statesOf region).filter machine.isStateActive = children at listed short ⊢
  cases children with
  | nil => cases listed
  | cons first rest =>
      have alone : rest = [] := List.length_eq_zero_iff.mp (by simpa using short)
      subst alone
      exact ⟨child, by rw [List.mem_singleton.mp listed], normal⟩

/-- Nothing in the machine runs a callback with an effect, and no state completes by itself. -/
def isPlain (machine : Machine) : Bool :=
  machine.states.toList.all (fun node =>
      node.entry.isNone && node.exit.isNone && node.activity.isNone &&
        !node.config.autoTransition) &&
    machine.transitions.toList.all fun transition => transition.effect.isNone

theorem node_of_isPlain {machine : Machine} (plain : machine.isPlain = true) {state : StateId}
    {node : StateNode} (found : machine.state? state = some node) :
    node.entry = none ∧ node.exit = none ∧ node.activity = none ∧
      node.config.autoTransition = false := by
  have known := List.all_eq_true.mp ((Bool.and_eq_true _ _).mp plain).1 node
    (Array.mem_toList_iff.mpr (Array.mem_of_getElem? found))
  simpa [and_assoc] using known

theorem calm_of_isPlain {machine : Machine} {mayFail : Prop} (plain : machine.isPlain = true) :
    machine.Calm mayFail := by
  have transitions := ((Bool.and_eq_true _ _).mp plain).2
  refine ⟨fun state node behavior found runs => ?_, fun id found effect memo present isEffect => ?_,
    fun state node found automatic => ?_⟩
  · obtain ⟨noEntry, noExit, noActivity, _⟩ := node_of_isPlain plain found
    rcases runs with entry | exit | activity
    · rw [noEntry] at entry
      cases entry
    · rw [noExit] at exit
      cases exit
    · rw [noActivity] at activity
      cases activity
  · have known := List.all_eq_true.mp transitions found
      (Array.mem_toList_iff.mpr (Array.mem_of_getElem? present))
    rw [isEffect] at known
    cases known
  · rw [(node_of_isPlain plain found).2.2.2] at automatic
    cases automatic

/-- A chart with one state, which is entered when the machine starts. -/
def lampRequests : List Request :=
  [.construct (.createState (.plain "on")), .construct (.addState ⟨3⟩),
    .construct (.createTransition (.initial "on")), .construct (.addTransition ⟨0⟩), .start]

def lamp : Machine :=
  Request.outcome 4 lampRequests (Machine.new "lamp" (.ofStem "auto"))

theorem lamp_plays :
    (Request.play 4 lampRequests (Machine.new "lamp" (.ofStem "auto"))).isSome = true ∧
      (Request.play 4 [.finish] lamp).isSome = true ∧ lamp.isPlain = true ∧
      lamp.isRegionActive defaultRegion = true := by
  decide +kernel

theorem session_lamp :
    Session (played lampRequests) (Machine.new "lamp" (.ofStem "auto")) lamp :=
  session_outcome lamp_plays.1

theorem lamp_configuration :
    lamp.Reached anyTerms ∧ lamp.Reached smooth ∧ lamp.Calm True ∧
      ∃ child, (lamp.statesOf defaultRegion).filter lamp.isStateActive = [child] ∧
        lamp.kindOf? child = some .normal := by
  have anyway : lamp.Reached anyTerms :=
    ⟨"lamp", .ofStem "auto", session_lamp.weaken fun _ _ _ _ _ => trivial⟩
  have smoothly : lamp.Reached smooth :=
    ⟨"lamp", .ofStem "auto", session_lamp.weaken fun _ _ _ _ call _ => Or.inl call.2⟩
  obtain ⟨_, _, plain, active⟩ := lamp_plays
  have calm : lamp.Calm True := calm_of_isPlain plain
  exact ⟨anyway, smoothly, calm,
    (Reached.coherent_configuration anyway calm).2.2.2 smoothly defaultRegion active⟩

end Machine

end Chart
