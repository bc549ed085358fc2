import Chart.Proofs.Run.Triggering

set_option autoImplicit false

/-!
Resuming histories. A pattern is a full configuration of a region: one child of the region, and one
of each region of a chosen state. It is stored while nothing inside the region is active and the
regions remember the chosen children, and active while exactly the chosen states are. When all
regions inside have histories, entering the history of the region makes a stored pattern active: the
history hands over to the remembered child, and the regions of that child are entered through
histories in turn.
-/

namespace Chart

namespace Machine

/-- The chosen states are a full configuration of a region in which every region has a history; none
of them completes by itself. -/
structure Pattern (machine : Machine) (region : RegionId) (chosen : StateId → Prop) : Prop where
  inside : ∀ state, chosen state → machine.Inside region state
  top : ∃ child, machine.containerOf? child = some region ∧ chosen child
  filled : ∀ owner nested, chosen owner → machine.ownerOf? nested = some owner →
    ∃ child, machine.containerOf? child = some nested ∧ chosen child
  around : ∀ state nested owner, chosen state → machine.containerOf? state = some nested →
    machine.ownerOf? nested = some owner → nested = region ∨ chosen owner
  alone : ∀ nested one other, machine.containerOf? one = some nested →
    machine.containerOf? other = some nested → chosen one → chosen other → one = other
  plain : ∀ state, chosen state → ∃ node, machine.state? state = some node ∧
    node.kind = .normal ∧ node.config.autoTransition = false
  marked : ∀ nested, machine.Within region nested →
    ∃ history, machine.historyOf? nested = some history

/-- Nothing inside the region is active, and the chosen states are those the regions remember. -/
structure PatternStored (machine : Machine) (region : RegionId) (chosen : StateId → Prop) : Prop
    extends Pattern machine region chosen where
  still : ∀ state, machine.Inside region state → machine.isStateActive state = false
  remembers : ∀ state nested, chosen state → machine.containerOf? state = some nested →
    machine.lastActive? nested = some state

/-- The chosen states are those that are active inside the region. -/
structure PatternActive (machine : Machine) (region : RegionId) (chosen : StateId → Prop) : Prop
    extends Pattern machine region chosen where
  patternActive : ∀ state, machine.Inside region state →
    (machine.isStateActive state = true ↔ chosen state)

def Part (machine : Machine) (chosen : StateId → Prop) (nested : RegionId) (state : StateId) :
    Prop :=
  chosen state ∧ machine.Inside nested state

private theorem SameChart.part {before after : Machine} (same : SameChart before after)
    (chosen : StateId → Prop) (nested : RegionId) :
    after.Part chosen nested = before.Part chosen nested :=
  funext fun _ => propext (and_congr_right fun _ => same.inside)

namespace Pattern

variable {before after machine : Machine} {region nested : RegionId} {owner : StateId}
variable {chosen : StateId → Prop}

private theorem of_sameChart (pattern : before.Pattern region chosen)
    (same : SameChart before after) :
    after.Pattern region chosen where
  inside := fun state isChosen => same.inside.mpr (pattern.inside state isChosen)
  top := by
    obtain ⟨child, contained, isChosen⟩ := pattern.top
    exact ⟨child, by rw [same.containerOf?]; exact contained, isChosen⟩
  filled := by
    intro owner nested isChosen owned
    rw [same.ownerOf?] at owned
    obtain ⟨child, contained, childChosen⟩ := pattern.filled owner nested isChosen owned
    exact ⟨child, by rw [same.containerOf?]; exact contained, childChosen⟩
  around := by
    intro state nested owner isChosen contained owned
    rw [same.containerOf?] at contained
    rw [same.ownerOf?] at owned
    exact pattern.around state nested owner isChosen contained owned
  alone := by
    intro nested one other containedOne containedOther
    rw [same.containerOf?] at containedOne containedOther
    exact pattern.alone nested one other containedOne containedOther
  plain := by
    intro state isChosen
    obtain ⟨node, found, normal, lasting⟩ := pattern.plain state isChosen
    obtain ⟨node', found', fixed⟩ := same.state?_forward found
    have kind : node'.kind = node.kind := StateNode.read_eq fixed StateNode.kind fun _ => rfl
    have config : node'.config = node.config :=
      StateNode.read_eq fixed StateNode.config fun _ => rfl
    exact ⟨node', found', by rw [kind]; exact normal, by rw [config]; exact lasting⟩
  marked := by
    intro nested within
    obtain ⟨history, marked⟩ := pattern.marked nested (same.within.mp within)
    exact ⟨history, by rw [same.historyOf?]; exact marked⟩

private theorem of_grown (pattern : before.Pattern region chosen) (grown : Grown before after)
    (wired : before.Wired)
    (closed : ∀ inner, after.Within region inner → before.Within region inner) :
    after.Pattern region chosen := by
  have insideAfter {state : StateId} (isChosen : chosen state) : after.Inside region state :=
    grown.inside (pattern.inside state isChosen)
  have container {state : StateId} {inner : RegionId} (isChosen : chosen state)
      (contained : after.containerOf? state = some inner) :
      before.containerOf? state = some inner := by
    obtain ⟨known, containedBefore, _⟩ := inside_iff.mp (pattern.inside state isChosen)
    rw [grown.containerOf? containedBefore] at contained
    rw [← contained]
    exact containedBefore
  have ownerBefore {state owner : StateId} {inner : RegionId}
      (contained : before.containerOf? state = some inner)
      (owned : after.ownerOf? inner = some owner) : before.ownerOf? inner = some owner := by
    obtain ⟨known, ownedBefore⟩ := wired.exists_owner contained
    rw [grown.ownerOf? ownedBefore] at owned
    rw [← owned]
    exact ownedBefore
  refine ⟨fun state => insideAfter, ?_, ?_, ?_, ?_, ?_, ?_⟩
  · obtain ⟨child, contained, isChosen⟩ := pattern.top
    exact ⟨child, grown.containerOf? contained, isChosen⟩
  · intro owner inner isChosen owned
    have ownedBefore : before.ownerOf? inner = some owner := by
      rcases closed inner
        (Within.of_owner owned (insideAfter isChosen)) with rfl | ⟨known, known', _⟩
      · obtain ⟨child, contained, _⟩ := pattern.top
        exact ownerBefore contained owned
      · rw [grown.ownerOf? known'] at owned
        rw [← owned]
        exact known'
    obtain ⟨child, contained, childChosen⟩ := pattern.filled owner inner isChosen ownedBefore
    exact ⟨child, grown.containerOf? contained, childChosen⟩
  · intro state inner owner isChosen contained owned
    have containedBefore := container isChosen contained
    exact pattern.around state inner owner isChosen containedBefore
      (ownerBefore containedBefore owned)
  · intro inner one other containedOne containedOther chosenOne chosenOther
    exact pattern.alone inner one other (container chosenOne containedOne)
      (container chosenOther containedOther) chosenOne chosenOther
  · intro state isChosen
    obtain ⟨node, found, normal, lasting⟩ := pattern.plain state isChosen
    obtain ⟨node', found', grownNode⟩ := grown.states state node found
    have config : node'.config = node.config :=
      StateNode.read_lasting grownNode.lasting StateNode.config fun _ => rfl
    exact ⟨node', found', grownNode.kind.normal_iff.mpr normal, by rw [config]; exact lasting⟩
  · intro inner within
    obtain ⟨history, marked⟩ := pattern.marked inner (closed inner within)
    exact ⟨history, grown.historyOf? marked⟩

private theorem part (pattern : machine.Pattern region chosen) (wired : machine.Wired)
    (isChosen : chosen owner) (owned : machine.ownerOf? nested = some owner) :
    machine.Pattern nested (machine.Part chosen nested) where
  inside := fun state part => part.2
  top := by
    obtain ⟨child, contained, childChosen⟩ := pattern.filled owner nested isChosen owned
    exact ⟨child, contained, childChosen, .member contained⟩
  filled := by
    intro other inner part ownedInner
    obtain ⟨child, contained, childChosen⟩ := pattern.filled other inner part.1 ownedInner
    exact ⟨child, contained, childChosen, .deeper contained ownedInner part.2⟩
  around := by
    intro state inner other part contained ownedInner
    cases part.2 with
    | member containedHere =>
        rw [contained] at containedHere
        exact Or.inl (Option.some.inj containedHere)
    | @deeper _ around container containedHere ownedAround inside =>
        rw [contained] at containedHere
        obtain rfl := Option.some.inj containedHere
        rw [ownedInner] at ownedAround
        obtain rfl := Option.some.inj ownedAround
        refine Or.inr ⟨?_, inside⟩
        refine (pattern.around state inner other part.1 contained ownedInner).resolve_left ?_
        -- The owner of the region itself lies further out than everything inside it.
        rintro rfl
        have above := wired.level_lt_of_inside ownedInner (pattern.inside owner isChosen)
        have below := wired.level_lt_of_inside owned inside
        omega
  alone := fun inner one other containedOne containedOther partOne partOther =>
    pattern.alone inner one other containedOne containedOther partOne.1 partOther.1
  plain := fun state part => pattern.plain state part.1
  marked := fun inner within => pattern.marked inner
    ((Within.of_owner owned (pattern.inside owner isChosen)).trans within)

private theorem within_container (pattern : machine.Pattern region chosen) {state : StateId}
    (isChosen : chosen state) (contained : machine.containerOf? state = some nested) :
    machine.Within region nested :=
  (pattern.inside state isChosen).within_container contained

/-- The chosen states lie at the chosen child of the region; by induction on the way up. -/
theorem below_top (pattern : machine.Pattern region chosen) {child state : StateId}
    (contained : machine.containerOf? child = some region) (childChosen : chosen child)
    (isChosen : chosen state) : machine.Below child state := by
  have inside := pattern.inside state isChosen
  induction inside with
  | @member state containedState =>
      rw [pattern.alone region state child containedState contained isChosen childChosen]
      exact Below.refl machine child
  | @deeper state owner nested containedState owned _ ih =>
      rcases pattern.around state nested owner isChosen containedState owned with here | around
      · rw [here] at containedState
        rw [pattern.alone region state child containedState contained isChosen childChosen]
        exact Below.refl machine child
      · exact below_iff_parent.mpr (Or.inr ⟨owner,
          parentOf?_eq_some.mpr ⟨nested, containedState, owned⟩, ih around⟩)

end Pattern

namespace PatternStored

variable {before after machine : Machine} {region nested : RegionId} {owner : StateId}
variable {chosen : StateId → Prop}

private theorem idle (patternStored : machine.PatternStored region chosen)
    (active : machine.isRegionActive region = true) : machine.Idle region :=
  ⟨active, fun state contained => patternStored.still state (.member contained)⟩

private theorem part (patternStored : machine.PatternStored region chosen) (wired : machine.Wired)
    (isChosen : chosen owner) (owned : machine.ownerOf? nested = some owner) :
    machine.PatternStored nested (machine.Part chosen nested) where
  toPattern := patternStored.toPattern.part wired isChosen owned
  still := fun state inside => patternStored.still state
    (inside.of_within (Within.of_owner owned (patternStored.inside owner isChosen)))
  remembers := fun state inner part => patternStored.remembers state inner part.1

theorem of_kept (patternStored : before.PatternStored region chosen) (same : SameChart before after)
    (states : ∀ state, before.Inside region state →
      after.isStateActive state = before.isStateActive state)
    (kept : ∀ inner, before.Within region inner →
      after.lastActive? inner = before.lastActive? inner) :
    after.PatternStored region chosen where
  toPattern := patternStored.toPattern.of_sameChart same
  still := by
    intro state inside
    have was := same.inside.mp inside
    rw [states state was]
    exact patternStored.still state was
  remembers := by
    intro state inner isChosen contained
    rw [same.containerOf?] at contained
    rw [kept inner (patternStored.within_container isChosen contained)]
    exact patternStored.remembers state inner isChosen contained

theorem of_still (patternStored : before.PatternStored region chosen) (still : Still before after) :
    after.PatternStored region chosen :=
  patternStored.of_kept still.sameChart (fun state _ => still.states state) fun inner _ => by
    rw [lastActive?, lastActive?, still.region?]

theorem of_opened (patternStored : before.PatternStored region chosen) {regions : List RegionId}
    (opened : Opened regions before after) : after.PatternStored region chosen :=
  patternStored.of_kept opened.changes.sameChart (fun state _ => opened.isStateActive state)
    fun inner _ => opened.remembered inner

private theorem of_untouched (patternStored : before.PatternStored region chosen)
    (same : SameChart before after)
    (untouched : Untouched region before after) : after.PatternStored region chosen :=
  patternStored.of_kept same (fun _ inside => untouched.isStateActive inside) fun inner within => by
    rw [lastActive?, lastActive?, untouched.regions inner within]

theorem of_emptied (patternStored : before.PatternStored region chosen) {gone : StateId → Prop}
    {shut : RegionId → Prop} (emptied : Emptied gone shut before after) :
    after.PatternStored region chosen where
  toPattern := patternStored.toPattern.of_sameChart emptied.changes.sameChart
  still := by
    intro state inside
    by_cases isGone : gone state
    · exact emptied.left state isGone
    · rw [emptied.statuses state isGone]
      exact patternStored.still state (emptied.changes.sameChart.inside.mp inside)
  remembers := by
    intro state inner isChosen contained
    rw [emptied.changes.sameChart.containerOf?] at contained
    have known := patternStored.remembers state inner isChosen contained
    rw [← known]
    refine emptied.kept inner fun other containedOther _ active => ?_
    -- Everything in a region around a chosen state lies inside the region of the pattern.
    have within := patternStored.within_container isChosen contained
    rw [patternStored.still other (inside_iff.mpr ⟨inner, containedOther, within⟩)] at active
    cases active

theorem of_entered (patternStored : before.PatternStored region chosen) {state : StateId}
    {node : StateNode}
    (found : before.state? state = some node) (outside : ¬before.Inside region state) :
    (before.entered state node.name).PatternStored region chosen := by
  refine patternStored.of_kept (sameChart_entered before state node.name) (fun other inside => ?_)
    fun _ _ => rfl
  rw [Bool.eq_iff_iff, isStateActive_entered found]
  refine or_iff_right ?_
  rintro rfl
  exact outside inside

/-- Around an active state the chart does not change as it grows, so that nothing active can come to
lie inside the region. -/
theorem of_grown (patternStored : before.PatternStored region chosen) (grown : Grown before after)
    (wired : before.Wired) (wiredAfter : after.Wired) (coherent : before.Coherent)
    (closed : ∀ inner, after.Within region inner → before.Within region inner) :
    after.PatternStored region chosen where
  toPattern := patternStored.toPattern.of_grown grown wired closed
  still := by
    have inside {state : StateId} (inside : after.Inside region state)
        (active : before.isStateActive state = true) : before.Inside region state := by
      induction inside with
      | @member state contained =>
          obtain ⟨container, contained', _⟩ := coherent.contained state active
            (wiredAfter.not_inside_root (.member contained))
          rw [grown.containerOf? contained'] at contained
          rw [← Option.some.inj contained]
          exact .member contained'
      | @deeper state owner nested contained owned _ ih =>
          obtain ⟨container, contained', containerActive⟩ := coherent.contained state active
            (wiredAfter.not_inside_root (.member contained))
          obtain ⟨above, owned', aboveActive⟩ := coherent.owned container containerActive
          rw [grown.containerOf? contained'] at contained
          obtain rfl := Option.some.inj contained
          rw [grown.ownerOf? owned'] at owned
          obtain rfl := Option.some.inj owned
          exact .deeper contained' owned' (ih aboveActive)
    intro state insideAfter
    rw [grown.isStateActive]
    cases active : before.isStateActive state with
    | false => rfl
    | true =>
        rw [patternStored.still state (inside insideAfter active)] at active
        cases active
  remembers := by
    intro state inner isChosen contained
    obtain ⟨container, contained', _⟩ := inside_iff.mp (patternStored.inside state isChosen)
    have known := patternStored.remembers state container isChosen contained'
    rw [grown.containerOf? contained'] at contained
    obtain rfl := Option.some.inj contained
    obtain ⟨members, found, isLast⟩ := Option.bind_eq_some_iff.mp known
    obtain ⟨members', found', grownRegion⟩ := grown.regions container members found
    have last : members'.lastActive = members.lastActive :=
      Region.read_lasting grownRegion.lasting Region.lastActive fun _ => rfl
    rw [lastActive?, found', Option.bind_some, last]
    exact isLast

private theorem of_passed (patternStored : before.PatternStored region chosen) {state : StateId}
    {node : StateNode}
    (found : before.state? state = some node) (passing : node.kind ≠ .normal)
    {shut : RegionId → Prop} (emptied : Emptied ((before.entered state node.name).Below state) shut
      (before.entered state node.name) after) : after.PatternStored region chosen := by
  have enters := sameChart_entered before state node.name
  have same := enters.trans emptied.changes.sameChart
  have alone {other : StateId} (inside : before.Inside region other)
      (active : (before.entered state node.name).isStateActive other = true) : other = state := by
    refine ((isStateActive_entered found node.name other).mp active).resolve_right fun before => ?_
    rw [patternStored.still other inside] at before
    cases before
  refine ⟨patternStored.toPattern.of_sameChart same, fun other inside => ?_,
    fun other inner isChosen contained => ?_⟩
  · rw [same.inside] at inside
    cases isActive : after.isStateActive other with
    | false => rfl
    | true =>
        by_cases below : (before.entered state node.name).Below state other
        · rw [emptied.left other below] at isActive
          cases isActive
        · rw [emptied.statuses other below] at isActive
          rw [alone inside isActive] at below
          exact absurd (Below.refl _ state) below
  · rw [same.containerOf?] at contained
    have known := patternStored.remembers other inner isChosen contained
    rw [← known]
    refine emptied.kept inner fun last containedLast _ active normal => passing ?_
    rw [enters.containerOf?] at containedLast
    rw [enters.kindOf?, alone (inside_iff.mpr ⟨inner, containedLast,
      patternStored.within_container isChosen contained⟩) active] at normal
    obtain ⟨node', found', isNormal⟩ := kindOf?_eq_some.mp normal
    rw [found] at found'
    rw [Option.some.inj found']
    exact isNormal

end PatternStored

namespace PatternActive

variable {before after machine : Machine} {region : RegionId} {chosen : StateId → Prop}

theorem of_kept (patternActive : before.PatternActive region chosen) (same : SameChart before after)
    (states : ∀ state, before.Inside region state →
      after.isStateActive state = before.isStateActive state) : after.PatternActive
      region chosen where
  toPattern := patternActive.toPattern.of_sameChart same
  patternActive := by
    intro state inside
    have was := same.inside.mp inside
    rw [states state was]
    exact patternActive.patternActive state was

theorem falls_patternStored (patternActive : before.PatternActive region chosen)
    {owner top : StateId}
    (owned : before.ownerOf? region = some owner) (below : before.Below top owner)
    {shut : RegionId → Prop} (emptied : Emptied (before.Below top) shut before after) :
    after.PatternStored region chosen := by
  have same := emptied.changes.sameChart
  have gone {state : StateId} (inside : before.Inside region state) : before.Below top state := by
    rcases below with rfl | ⟨outer, ownedOuter, insideOwner⟩
    · exact Or.inr ⟨region, owned, inside⟩
    · exact Or.inr ⟨outer, ownedOuter, inside.of_within (Within.of_owner owned insideOwner)⟩
  refine ⟨patternActive.toPattern.of_sameChart same, fun state inside => ?_,
    fun state inner isChosen contained => ?_⟩
  · exact emptied.left state (gone (same.inside.mp inside))
  · have inside := patternActive.inside state isChosen
    obtain ⟨node, found, normal, _⟩ := patternActive.plain state isChosen
    rw [same.containerOf?] at contained
    exact emptied.remembered inner state contained (gone inside)
      ((patternActive.patternActive state inside).mpr isChosen)
      (kindOf?_eq_some.mpr ⟨node, found, normal⟩)

theorem container_active (patternActive : machine.PatternActive region chosen)
    (wired : machine.Wired)
    (coherent : machine.Coherent) {state : StateId} {nested : RegionId} (isChosen : chosen state)
    (contained : machine.containerOf? state = some nested) :
    machine.isRegionActive nested = true :=
  coherent.container_active wired
    ((patternActive.patternActive state (patternActive.inside state isChosen)).mpr isChosen)
    contained

private theorem of_parts (pattern : machine.Pattern region chosen) (wired : machine.Wired)
    (coherent : machine.Coherent) {child : StateId}
    (contained : machine.containerOf? child = some region) (childChosen : chosen child)
    (active : machine.isStateActive child = true)
    (parts : ∀ nested, machine.ownerOf? nested = some child →
      machine.PatternActive nested (machine.Part chosen nested)) : machine.PatternActive
      region chosen where
  toPattern := pattern
  patternActive := by
    intro state inside
    constructor
    · intro isActive
      obtain ⟨other, containedOther, otherActive, below⟩ :=
        coherent.below_child wired inside isActive
      rw [coherent.single region other child containedOther contained otherActive active] at below
      rcases below with here | ⟨nested, owned, insideNested⟩
      · rw [here]
        exact childChosen
      · exact (((parts nested owned).patternActive state insideNested).mp isActive).1
    · intro isChosen
      rcases pattern.below_top contained childChosen isChosen with here | ⟨nested, owned, inner⟩
      · rw [here]
        exact active
      · exact ((parts nested owned).patternActive state inner).mpr ⟨isChosen, inner⟩

end PatternActive

end Machine

namespace Run

open Machine (Orderly TouchesOnly)

/-- Entering the history of an active region makes the pattern that is stored in it active. -/
def ResumesPatterns (calls : Calls) : Prop :=
  ∀ (machine : Machine) (region : RegionId) (chosen : StateId → Prop) (history : StateId),
    machine.Orderly True → machine.Coherent → machine.PatternStored region chosen →
    machine.isRegionActive region = true → machine.historyOf? region = some history →
    Ends (activate calls history) machine (fun _ after => after.PatternActive region chosen)
      (fun _ _ => True)

private theorem enterMarker_of_history {machine : Machine} {region : RegionId} {history : StateId}
    (marked : machine.historyOf? region = some history) :
    machine.enterMarker region = [.state history] := by
  obtain ⟨members, found, isHistory⟩ := Machine.historyOf?_eq_some.mp marked
  rw [Machine.enterMarker, Machine.entryMarker?, found, Option.map_some, Region.entryMarker,
    isHistory]
  rfl

theorem contained_of_history {machine : Machine} (formed : machine.Formed) {region : RegionId}
    {history : StateId} (marked : machine.historyOf? region = some history) :
    machine.containerOf? history = some region ∧
      ∃ depth, machine.kindOf? history = some (.history depth) := by
  obtain ⟨members, found, isHistory⟩ := Machine.historyOf?_eq_some.mp marked
  exact (formed.history region members history found).mpr isHistory

variable {calls : Calls}

private theorem ends_enterMarker_patternStored (resumesPatterns : ResumesPatterns calls)
    {chart machine : Machine}
    {region : RegionId} {chosen : StateId → Prop} (same : Machine.SameChart chart machine)
    (orderly : machine.Orderly True) (coherent : machine.Coherent)
    (patternStored : machine.PatternStored region chosen)
    (active : machine.isRegionActive region = true) :
    Ends (enterBy calls (chart.enterMarker region)) machine
      (fun _ after => after.PatternActive region chosen) (fun _ _ => True) := by
  obtain ⟨history, marked⟩ := patternStored.marked region (Machine.Within.refl machine region)
  have contained := (contained_of_history orderly.toFormed marked).1
  have markedFirst := marked
  rw [same.historyOf?] at markedFirst
  rw [enterMarker_of_history markedFirst]
  unfold enterBy
  rw [ends_forM_cons]
  exact ends_entryStep_ready (Or.inr ⟨region, contained, patternStored.idle active⟩) orderly.toWired
    (resumesPatterns machine region chosen history orderly coherent patternStored active marked)

/-- The pattern of each region becomes active when its history is entered, and stays so while the
histories of its siblings are entered; by induction on the list. -/
theorem ends_resumeRegions (resumesPatterns : ResumesPatterns calls)
    (activating : Activating True (fun _ _ => True) calls) {chart : Machine} (formed : chart.Formed)
    {owner : StateId} {parts : RegionId → StateId → Prop} (regions : List RegionId)
    (nodup : regions.Nodup) (owned : ∀ region ∈ regions, chart.ownerOf? region = some owner)
    {machine : Machine} (same : Machine.SameChart chart machine) (orderly : machine.Orderly True)
    (coherent : machine.Coherent)
    (patternStored : ∀ region ∈ regions, machine.PatternStored region (parts region))
    (active : ∀ region ∈ regions, machine.isRegionActive region = true) :
    Ends (enterBy calls (regions.flatMap chart.enterMarker)) machine
      (fun _ after => ∀ region ∈ regions, after.PatternActive region (parts region))
      (fun _ _ => True) := by
  induction regions generalizing machine with
  | nil => exact List.forall_mem_nil _
  | cons first rest ih =>
      obtain ⟨notListed, nodupRest⟩ := List.nodup_cons.mp nodup
      have ownedNow (region : RegionId) (listed : region ∈ first :: rest) :
          machine.ownerOf? region = some owner := by
        rw [same.ownerOf?]
        exact owned region listed
      have storedFirst := patternStored first (List.mem_cons_self ..)
      have activeFirst := active first (List.mem_cons_self ..)
      have idleFirst := storedFirst.idle activeFirst
      have waking :=
        ends_enterMarker_patternStored resumesPatterns same orderly coherent storedFirst activeFirst
      have composes := settles_composes (respects_trivial True) activating chart
      have settling := composes.enterMarker formed
        (owned first (List.mem_cons_self ..)) machine same
        orderly coherent idleFirst
      unfold enterBy
      rw [List.flatMap_cons, ends_forM_append]
      refine (settling.and waking).mono (fun _ middle results => ?_) fun _ _ _ => trivial
      obtain ⟨settled, activeFirst⟩ := results
      have sameMiddle := settled.toMoved.sameChart
      have orderlyMiddle := orderly.of_changes settled.changes
      have apart (region : RegionId) (member : region ∈ rest) : machine.Apart first region := by
        refine orderly.toWired.siblings_apart (ownedNow first (List.mem_cons_self ..))
          (ownedNow region (List.mem_cons_of_mem _ member)) ?_
        rintro rfl
        exact notListed member
      have untouched (region : RegionId) (member : region ∈ rest) :
          Machine.Untouched region machine middle :=
        settled.spares first region rfl (active region (List.mem_cons_of_mem _ member))
          (apart region member)
      have storedRest (region : RegionId) (member : region ∈ rest) :
          middle.PatternStored region (parts region) :=
        (patternStored region (List.mem_cons_of_mem _ member)).of_untouched sameMiddle
          (untouched region member)
      have activeRest (region : RegionId) (member : region ∈ rest) :
          middle.isRegionActive region = true := by
        rw [(untouched region member).isRegionActive (Machine.Within.refl machine region)]
        exact active region (List.mem_cons_of_mem _ member)
      have ownedRest (region : RegionId) (member : region ∈ rest) :=
        owned region (List.mem_cons_of_mem _ member)
      have filling := ends_fillRegions (respects_trivial True) rest nodupRest ownedRest
        (fun region member => composes.enterMarker formed (ownedRest region member))
        (same.trans sameMiddle) orderlyMiddle settled.coherent
        fun region member => (storedRest region member).idle (activeRest region member)
      have later := ih nodupRest ownedRest (same.trans sameMiddle) orderlyMiddle settled.coherent
        storedRest activeRest
      refine (filling.and later).mono (fun _ after results region member => ?_) fun _ _ _ => trivial
      obtain ⟨⟨filled, _⟩, activeRest⟩ := results
      rcases List.mem_cons.mp member with rfl | inRest
      · obtain ⟨child, containedChild, childChosen⟩ := activeFirst.top
        have activeMiddle := activeFirst.container_active orderlyMiddle.toWired settled.coherent
          childChosen containedChild
        have spared := filled.spares region activeMiddle fun other inRest =>
          sameMiddle.apart.mpr (apart other inRest).symm
        exact activeFirst.of_kept filled.changes.sameChart fun _ inside =>
          spared.isStateActive inside
      · exact activeRest region inRest

/-- Entering the chosen child of a region makes the pattern active: the child stays, its regions are
opened, and the pattern of each of them becomes active. -/
theorem ends_enterDefault_patternStored {depth : Nat}
    (resumesPatterns : ResumesPatterns (Run.calls depth))
    {machine : Machine} {region : RegionId} {chosen : StateId → Prop} {child : StateId}
    (orderly : machine.Orderly True) (coherent : machine.Coherent)
    (patternStored : machine.PatternStored region chosen)
    (active : machine.isRegionActive region = true)
    (contained : machine.containerOf? child = some region) (childChosen : chosen child) :
    Ends (enterDefault (Run.calls depth) child) machine
    (fun _ after => after.PatternActive region chosen)
      (fun _ _ => True) := by
  have steady := steady_calls (respects_trivial True) depth
  have entering : Activating True (fun _ _ => True) (Run.calls depth) :=
    activating (respects_trivial True) steady ⟨depth, rfl⟩
  have ready : machine.Ready child := Or.inr ⟨region, contained, patternStored.idle active⟩
  have inactive : machine.isStateActive child = false := ready_inactive ready
  obtain ⟨node, found, normal, lasting⟩ := patternStored.plain child childChosen
  have owned (nested : RegionId) (member : nested ∈ machine.regionsOf child) :
      machine.ownerOf? nested = some child := (orderly.owned nested child).mpr member
  unfold enterDefault
  rw [ends_bind, ends_get]
  unfold Machine.defaultEntryPlan
  rw [Machine.inactiveRegions_eq fun nested member =>
    coherent.region_inactive (owned nested member) inactive]
  unfold enterBy
  rw [List.cons_append, ends_forM_cons]
  refine ends_entryStep_ready ready orderly.toWired
    ((ends_activate_follows (respects_trivial True) steady orderly coherent ready found).mono
      (fun _ middle follows => ?_) fun _ _ _ => trivial)
  have touches : TouchesOnly child (machine.entered child node.name) middle := by
    rcases follows with ⟨_, touches⟩ | ⟨_, automatic, _⟩
    · exact touches
    · rw [lasting] at automatic
      cases automatic normal
  have arrived := (Arrived.of_entered orderly coherent found ready inactive).of_touches touches
  have sameMiddle := (Machine.sameChart_entered machine child node.name).trans touches.sameChart
  rw [ends_forM_append]
  refine (ends_openEntered orderly.toWired coherent found inactive touches arrived.coherent).mono
    (fun _ wide results => ?_) fun _ _ (impossible : False) => impossible.elim
  obtain ⟨opened, waiting⟩ := results
  have sameWide := sameMiddle.trans opened.changes.sameChart
  have storedWide (nested : RegionId) (member : nested ∈ machine.regionsOf child) :
      wide.PatternStored nested (machine.Part chosen nested) :=
    (((patternStored.part orderly.toWired childChosen (owned nested member)).of_entered found
      (orderly.toWired.not_inside_own_region (owned nested member))).of_still
        touches.toStill).of_opened opened
  have activeWide (nested : RegionId) (member : nested ∈ machine.regionsOf child) :=
    (waiting nested member).2.1
  have orderlyWide := arrived.orderly.of_changes opened.changes
  have filling := ends_fillRegions (respects_trivial True) (machine.regionsOf child)
    (orderly.ownedOnce child) owned
    (fun nested member => (settles_composes (respects_trivial True) entering machine).enterMarker
      orderly.toFormed (owned nested member))
    sameWide orderlyWide opened.coherent fun nested member => (waiting nested member).2
  have waking := ends_resumeRegions resumesPatterns entering orderly.toFormed
    (machine.regionsOf child)
    (orderly.ownedOnce child) owned sameWide orderlyWide opened.coherent storedWide activeWide
  refine (filling.and waking).mono (fun _ after results => ?_) fun _ _ _ => trivial
  obtain ⟨⟨filled, _⟩, patternActive⟩ := results
  have sameAfter := sameWide.trans filled.changes.sameChart
  have wiredAfter := (orderlyWide.of_changes filled.changes).toWired
  have activeAfter : after.isStateActive child = true := by
    cases regions : machine.regionsOf child with
    | nil =>
        -- Nothing was entered any more, so that the region around the child was spared.
        have activeRegion : wide.isRegionActive region = true := by
          rw [opened.opened, touches.isRegionActive, Machine.isRegionActive_entered]
          exact Or.inr active
        have spared :=
          filled.spares region activeRegion (by rw [regions]; exact List.forall_mem_nil _)
        rw [spared.isStateActive (.member (by rw [sameWide.containerOf?]; exact contained)),
          opened.isStateActive]
        exact arrived.active
    | cons first rest =>
        have member : first ∈ machine.regionsOf child := by
          rw [regions]
          exact List.mem_cons_self ..
        have activeFirst := patternActive first member
        obtain ⟨inner, containedInner, innerChosen⟩ := activeFirst.top
        exact filled.coherent.owner_active (activeFirst.container_active wiredAfter filled.coherent
          innerChosen containedInner) (by rw [sameAfter.ownerOf?]; exact owned first member)
  refine Machine.PatternActive.of_parts (patternStored.toPattern.of_sameChart sameAfter) wiredAfter
    filled.coherent
    (by rw [sameAfter.containerOf?]; exact contained) childChosen activeAfter
    fun nested ownedAfter => ?_
  rw [sameAfter.ownerOf?] at ownedAfter
  rw [sameAfter.part]
  exact patternActive nested ((orderly.owned nested child).mp ownedAfter)

/-- The history is left at once, and its region enters the child it remembers; by induction on the
depth. -/
theorem resumesPatterns_calls (depth : Nat) : ResumesPatterns (Run.calls depth) := by
  intro machine region chosen history orderly coherent patternStored active marked
  obtain ⟨contained, kindDepth, isHistory⟩ := contained_of_history orderly.toFormed marked
  obtain ⟨node, found, kind⟩ := Machine.kindOf?_eq_some.mp isHistory
  have inRegion : node.container = some region := by
    rw [Machine.containerOf?, found] at contained
    exact contained
  have ready : machine.Ready history := Or.inr ⟨region, contained, patternStored.idle active⟩
  have inactive := ready_inactive ready
  have inactiveNode := (Machine.isStateActive_eq found).symm.trans inactive
  have arrived := Arrived.of_entered orderly coherent found ready inactive
  have same := Machine.sameChart_entered machine history node.name
  rw [ends_activate found inactiveNode]
  rw [kind, inRegion]
  dsimp only
  unfold resumeHistory
  rw [ends_bind]
  refine (arrived.ends_deactivate (by rw [same.containerOf?]; exact contained)).mono
    (fun _ empty left => ?_) fun _ _ _ => trivial
  obtain ⟨emptied, orderlyEmpty, idleEmpty, _⟩ := left
  have storedEmpty : empty.PatternStored region chosen :=
    patternStored.of_passed found (by rw [kind]; simp) emptied
  obtain ⟨child, containedChild, childChosen⟩ := storedEmpty.top
  have remembered := storedEmpty.remembers child region childChosen containedChild
  obtain ⟨members, stored, isLast⟩ := Option.bind_eq_some_iff.mp remembered
  rw [ends_bind, ends_get, stored]
  dsimp only
  rw [isLast]
  dsimp only
  rw [ends_bind, ends_report]
  have told : TouchesOnly child empty
      (empty.note (.notice (.historyResumes child (empty.stateName child)))) :=
    TouchesOnly.note child empty rfl
  cases depth with
  | zero => trivial
  | succ depth =>
      exact ends_enterDefault_patternStored (resumesPatterns_calls depth)
        (orderlyEmpty.of_changes told.changes)
        (told.coherent emptied.coherent) (storedEmpty.of_still told.toStill)
        (told.idle idleEmpty).1 (by rw [told.sameChart.containerOf?]; exact containedChild)
        childChosen

end Run
end Chart
