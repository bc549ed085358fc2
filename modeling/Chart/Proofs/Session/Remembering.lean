import Chart.Proofs.Session.Driving
import Chart.Proofs.Session.Visiting

set_option autoImplicit false

/-!
What histories remember. The memory of a region is always its normal child that was left last,
whatever the callbacks do. In a machine with quiet callbacks every state is entered that is to be,
so a history that is entered is left at once and hands over to that child, which is entered with
its defaults, or to the initial state of the region.
-/

namespace Chart

private theorem Behavior.Quiet.fires {mayFail : Prop} {behavior : Behavior}
    (quiet : behavior.Quiet mayFail)
    (permitted : TransitionReference → Prop) : behavior.Fires permitted := by
  induction quiet with
  | done => exact .done
  | fail error _ => exact .fail error
  | note text _ ih => exact .note text ih
  | look _ ih => exact .look ih
  | write key value _ ih => exact .write key value ih

private theorem StateKind.Redeepened.history {before after : StateKind} {depth : HistoryDepth}
    (same : Redeepened before after) (isHistory : after = .history depth) :
    ∃ earlier, before = .history earlier := by
  rcases same with rfl | ⟨old, _, rfl, _⟩
  · exact ⟨depth, isHistory⟩
  · exact ⟨old, rfl⟩

namespace Machine

private theorem Calm.drives {machine : Machine} (calm : machine.Calm True) (base : StateId) :
    machine.Drives base where
  behaviors := calm.behaviors
  effects := fun id found _ effect memo present _ isEffect =>
    (calm.effects id found effect memo present isEffect).fires _
  leaves := calm.leaves

/-- Each history that was entered has handed over to what its region remembered. -/
def Recalled (machine : Machine) : Prop :=
  machine.Resuming True [] machine.journal.toList

/-- The machine when the history has been entered and left and it has been told who is resumed. -/
def handedOver (machine : Machine) (history : StateId) (node : StateNode) (child : StateId) :
    Machine :=
  ((machine.entered history node.name).left history { node with status := .active }).note
    (.notice (.historyResumes child (machine.stateName child)))

section Calls

variable {before after : Machine}

private theorem Recalled.resumption (recalled : before.Recalled) {early late : List Event}
    {history : StateId} {name : String} {region : RegionId} {depth : HistoryDepth}
    (split : before.journal.toList = early ++ .notice (.entered history name) :: late)
    (isHistory : before.kindOf? history = some (.history depth))
    (contained : before.containerOf? history = some region) :
    before.Resumption history region (before.lastLeft? region early) late := by
  rcases recalled early late history name region depth split isHistory contained with
    ⟨slow, _⟩ | resumption
  · exact absurd trivial slow
  · exact resumption

private theorem InOrder.recalled (inOrder : InOrder before after)
    (noMissedEntry : NoMissedEntry before after ∨ Still before after)
    (recalled : before.Recalled) : after.Recalled := by
  obtain ⟨events, told, _, resuming⟩ := inOrder.told
  have resumes : before.Resuming True before.journal.toList events := by
    rcases noMissedEntry with ⟨others, toldOthers, unmissed⟩ | still
    · rw [← told.unique toldOthers] at unmissed
      exact resuming.of_noMissedEntry unmissed
    · obtain ⟨others, toldOthers, unmoved⟩ := still.told
      rw [← told.unique toldOthers] at unmoved
      apply resuming_of_unentered
      intro event member state _ sets
      rw [Event.sets_of_still (unmoved event member)] at sets
      cases sets
  unfold Recalled
  rw [told]
  exact inOrder.changes.sameChart.resuming.mpr (recalled.append resumes)

private theorem Grown.resumption (grown : Grown before after) {history : StateId}
    {region : RegionId}
    {memory : Option StateId} {events : List Event}
    (resumption : before.Resumption history region memory events) :
    after.Resumption history region memory events := by
  cases resumption with
  | recalled entersFirst => exact .recalled entersFirst
  | fresh stored entersFirst =>
      obtain ⟨members, found, isInitial⟩ := Option.map_eq_some_iff.mp stored
      obtain ⟨members', found', grownRegion⟩ := grown.regions region members found
      have initial := Region.read_lasting grownRegion.lasting Region.initial fun _ => rfl
      apply Resumption.fresh _ entersFirst
      rw [found', Option.map_some, initial, isInitial]

private theorem Grown.recalled (grown : Grown before after) (wired : before.Wired)
    (rooted : before.Rooted)
    (wiredAfter : after.Wired) (recalled : before.Recalled) : after.Recalled := by
  intro early late history name region depth split isHistory contained
  rw [grown.journal] at split
  have below := rooted.below_of_entered split
  obtain ⟨node, found⟩ := Option.isSome_iff_exists.mp (wired.isSome_of_below below)
  obtain ⟨kind, isKind, redeepened⟩ := grown.kindOf? (kindOf?_eq_some.mpr ⟨node, found, rfl⟩)
  rw [isHistory] at isKind
  obtain ⟨earlier, wasHistory⟩ := redeepened.history (Option.some.inj isKind).symm
  rw [grown.containerOf?_of_below wired wiredAfter below] at contained
  have early' : early ⊆ before.journal.toList := by
    rw [split]
    exact List.subset_append_left _ _
  right
  rw [List.nil_append, grown.lastLeft? wired rooted wiredAfter early']
  exact grown.resumption (recalled.resumption split
    (kindOf?_eq_some.mpr ⟨node, found, wasHistory⟩) contained)

end Calls

end Machine

namespace Run

/-- Entering a history whose region remembers a child comes to entering that child with its
defaults. -/
theorem activate_history {calls : Calls} {machine : Machine} {history child : StateId}
    {node : StateNode} {region : RegionId} {depth : HistoryDepth}
    (found : machine.state? history = some node) (inactive : node.status.isActive = false)
    (isHistory : node.kind = .history depth) (contained : node.container = some region)
    (remembered : machine.lastActive? region = some child) :
    activate calls history machine = calls.enter child (machine.handedOver history node child) := by
  obtain ⟨members, stored, isChild⟩ := Option.bind_eq_some_iff.mp remembered
  have storedNow : (machine.entered history node.name).region? region = some members := stored
  have special : node.kind ≠ .normal := by rw [isHistory]; simp
  apply eq_of_ends
  intro ended failed
  rw [ends_activate found inactive, isHistory, contained]
  dsimp only
  rw [ends_resumption (Machine.state?_entered found node.name) rfl special storedNow, isChild]
  dsimp only
  rw [ends_bind, ends_report, (Machine.sameChart_entered machine history node.name).stateName]
  exact Iff.rfl

end Run

namespace Request

private theorem Returns.noMissedEntry {request : Request} {before after : Machine}
    {answer : Except MachineError Unit} (returns : request.Returns before answer after)
    (formed : before.Formed) (linked : before.Linked) (calm : before.Calm True)
    (coherent : before.Coherent) :
    Machine.NoMissedEntry before after ∨ Machine.Still before after := by
  cases runs : request.runs with
  | true =>
      have fitToDrive : before.FitToDrive Machine.root :=
        { toFormed := formed, linked := linked, drives := calm.drives Machine.root }
      exact (returns.coherentAfter_of_fitToDrive runs fitToDrive coherent).2
  | false =>
      apply (returns.prepares formed runs).imp_left
      intro becomes
      refine ⟨[], ?_, by simp⟩
      unfold Machine.Told
      rw [becomes.grown.journal, List.append_nil]

end Request

namespace Machine

private theorem Reached.recalled {terms : Terms} {machine : Machine}
    (reached : machine.Reached terms)
    (calm : machine.Calm True) : machine.Recalled := by
  obtain ⟨name, names, session⟩ := reached
  have new := chronicled_new name names
  have silent : (Machine.new name names).Recalled := by
    intro early late history entered region depth split
    rw [journal_new] at split
    exact absurd split.symm (by simp)
  exact (session.keeps_calmly (formed_new name names) (linked_new name names) calm
    (fun current => current.Coherent ∧ current.Rooted ∧ current.Recalled)
    ⟨coherent_new name names, new.rooted, silent⟩
    fun first request answer last formed linked calmFirst returns _ kept => by
      obtain ⟨coherent, rooted, recalled⟩ := kept
      refine ⟨returns.coherent formed linked calmFirst coherent, ?_⟩
      rcases returns.grown_or_inOrder
        { toFormed := formed, linked := linked, rooted := rooted } with
        ⟨grown, wiredLast⟩ | inOrder
      · exact ⟨grown.rooted formed.toWired rooted wiredLast,
          grown.recalled formed.toWired rooted wiredLast recalled⟩
      · exact ⟨inOrder.rooted,
          inOrder.recalled (returns.noMissedEntry formed linked calmFirst coherent) recalled⟩).2.2

/-- A history that was entered is not active once the call has returned: nothing was told of it
after it was left. -/
theorem Recalled.inactive {machine : Machine} (recalled : machine.Recalled)
    (retold : machine.Retold) {history : StateId} {region : RegionId} {depth : HistoryDepth}
    (isHistory : machine.kindOf? history = some (.history depth))
    (contained : machine.containerOf? history = some region) :
    machine.isStateActive history = false := by
  by_contra active
  rw [Bool.not_eq_false, ← retold.states history] at active
  obtain ⟨early, late, name, split, silent⟩ := exists_entry_of_replay active
  obtain ⟨left, rest, rfl⟩ :=
    (recalled.resumption split isHistory contained).begins
  have told := silent (.notice (.left history left)) (List.mem_cons_self ..)
  rw [Event.sets_left, if_pos rfl] at told
  cases told

/-- However a machine is built and run, each region remembers the normal child that was left last.
With quiet callbacks every history that is entered is left at once and is not active when the call
has returned; the next state to be entered is that child, or the initial state of the region if no
normal child has been left. The child is entered with its defaults. -/
theorem Reached.history_remembered {machine : Machine} (reached : machine.Reached anyTerms)
    (region : RegionId) :
    machine.lastActive? region = machine.lastLeft? region machine.journal.toList ∧
    (machine.Calm True → ∀ history depth, machine.kindOf? history = some (.history depth) →
      machine.containerOf? history = some region →
        machine.isStateActive history = false ∧
        ∀ early late name, machine.journal.toList = early ++
        .notice (.entered history name) :: late →
          machine.Resumption history region (machine.lastLeft? region early) late) ∧
    ∀ (current : Machine) history node depth child bound, current.state? history = some node →
      node.status.isActive = false → node.kind = .history depth → node.container = some region →
      current.lastActive? region = some child →
        Run.activate (Run.calls (bound + 1)) history current =
          Run.enterDefault (Run.calls bound) child (current.handedOver history node child) := by
  refine ⟨reached.chronicled.rooted.remembers region, ?_, ?_⟩
  · intro calm history depth isHistory contained
    have recalled := reached.recalled calm
    refine ⟨recalled.inactive reached.linked.retold isHistory contained, ?_⟩
    intro early late name split
    exact recalled.resumption split isHistory contained
  · intro current history node depth child bound found inactive isHistory contained remembered
    exact Run.activate_history found inactive isHistory contained remembered

/-- A chart whose one state is resumed by a history when the machine is started again. -/
def annexRequests : List Request :=
  [.construct (.createState (.plain "on")), .construct (.addState ⟨3⟩),
    .construct (.createTransition (.initial "on")), .construct (.addTransition ⟨0⟩),
    .construct (.regionAddHistory defaultRegion .shallow), .start, .finish, .start]

def annex : Machine :=
  Request.outcome 6 annexRequests (Machine.new "annex" (.ofStem "auto"))

private theorem annex_plays :
    (Request.play 6 annexRequests (Machine.new "annex" (.ofStem "auto"))).isSome = true ∧
      annex.isPlain = true ∧ annex.kindOf? ⟨4⟩ = some (.history .shallow) ∧
      annex.containerOf? ⟨4⟩ = some defaultRegion ∧
      (annex.state? ⟨4⟩).map (fun node => (node.status, node.kind, node.container)) =
        some (.inactive, .history .shallow, some defaultRegion) ∧
      annex.lastActive? defaultRegion = some ⟨3⟩ ∧
      annex.journal.toList = annex.journal.toList.take 16 ++
        .notice (.entered ⟨4⟩ (annex.stateName ⟨4⟩)) :: annex.journal.toList.drop 17 ∧
      annex.lastLeft? defaultRegion (annex.journal.toList.take 16) = some ⟨3⟩ := by
  decide +kernel

/-- The history hands over to the state that was left when the machine was finished, and it would do
so again. -/
theorem annex_resumes :
    annex.Reached anyTerms ∧ annex.Calm True ∧ annex.isStateActive ⟨4⟩ = false ∧
      some ⟨3⟩ = annex.lastLeft? defaultRegion annex.journal.toList ∧
      annex.Resumption ⟨4⟩ defaultRegion (some ⟨3⟩) (annex.journal.toList.drop 17) ∧
      ∃ node, ∀ bound, Run.activate (Run.calls (bound + 1)) ⟨4⟩ annex =
        Run.enterDefault (Run.calls bound) ⟨3⟩ (annex.handedOver ⟨4⟩ node ⟨3⟩) := by
  obtain ⟨plays, plain, isHistory, contained, known, remembered, split, left⟩ := annex_plays
  have reached : annex.Reached anyTerms :=
    ⟨"annex", .ofStem "auto", (session_outcome plays).weaken fun _ _ _ _ _ => trivial⟩
  have calm : annex.Calm True := calm_of_isPlain plain
  obtain ⟨memory, resumes, enters⟩ := Reached.history_remembered reached defaultRegion
  obtain ⟨inactive, handsOver⟩ := resumes calm ⟨4⟩ .shallow isHistory contained
  have resumption := handsOver _ _ _ split
  rw [left] at resumption
  rw [remembered] at memory
  obtain ⟨node, found, parts⟩ := Option.map_eq_some_iff.mp known
  obtain ⟨status, kind, container⟩ : node.status = .inactive ∧ node.kind = .history .shallow ∧
      node.container = some defaultRegion := by simpa using parts
  exact ⟨reached, calm, inactive, memory, resumption, node, fun bound =>
    enters annex ⟨4⟩ node .shallow ⟨3⟩ bound found (by rw [status]; rfl) kind container remembered⟩

end Machine
end Chart
