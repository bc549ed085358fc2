import Chart.Proofs.Forest.DeepInstallation
import Chart.Proofs.Run.KeepingPatterns
import Chart.Proofs.Session.Configuration

set_option autoImplicit false

/-!
Deep histories in a session. A region that has received a deep history, and to which no region is
added inside afterwards, recalls its whole configuration: when a state around it is left as a whole
and the region is later entered through its history, exactly those states are active inside it again
that were active before.
-/

namespace Chart

/-- The call is answered, and no region is added inside the given one. -/
def keeping (region : RegionId) : Terms := fun before _ answer after =>
  answer = .ok () ∧ ∀ nested, after.Within region nested → before.Within region nested

/-- The call leaves a state around the given one, or the state itself, as a whole. -/
def leaving (owner : StateId) : Terms := fun before request _ after =>
  ∃ top events name, request.Leaves before top ∧ before.Below top owner ∧
    Machine.Told before after events ∧ .notice (.left owner name) ∈ events

def resting (region : RegionId) : Terms := fun before request answer after =>
  keeping region before request answer after ∧
    ∃ events, Machine.Told before after events ∧ after.NotEntered region events

/-- The first state inside the region that is entered is its history. -/
def resuming (region : RegionId) : Terms := fun before request answer after =>
  keeping region before request answer after ∧
    ∃ events history, Machine.Told before after events ∧
      after.historyOf? region = some history ∧ after.FirstEntered region events history

def Terms.and (terms others : Terms) : Terms := fun before request answer after =>
  terms before request answer after ∧ others before request answer after

private theorem Session.keeping {requests : List Request} {before after : Machine}
    (session : Session (played requests) before after)
    (running : ∀ request ∈ requests, request.runs = true) (region : RegionId) :
    Session (Chart.keeping region) before after := by
  refine Relation.ReflTransGen.mono (fun first last serves => ?_) _ _ session
  obtain ⟨request, answer, returns, listed, isOk⟩ := serves
  exact ⟨request, answer, returns, isOk, fun _ within =>
    (returns.changes (running request listed)).sameChart.within.mp within⟩

/-- The owner of the region is left as a whole, and the region is entered again through its history:
by the same call, or by a later one, with any calls in between that enter nothing inside. -/
def ComesBack (owner : StateId) (region : RegionId) (before after : Machine) : Prop :=
  Serves ((leaving owner).and (resuming region)) before after ∨
    ∃ left last, Serves ((leaving owner).and (resting region)) before left ∧
      Session (resting region) left last ∧ Serves (resuming region) last after

namespace Machine

/-- The region is active, with all regions of the active states inside it, and none of these states
completes by itself. -/
structure Whole (machine : Machine) (region : RegionId) : Prop where
  active : machine.isRegionActive region = true
  full : ∀ state nested, machine.Inside region state → machine.isStateActive state = true →
    machine.ownerOf? nested = some state → machine.isRegionActive nested = true
  lasting : ∀ state node, machine.Inside region state → machine.isStateActive state = true →
    machine.state? state = some node → node.config.autoTransition = false

def Occupies (machine : Machine) (region : RegionId) (state : StateId) : Prop :=
  machine.Inside region state ∧ machine.isStateActive state = true

private theorem Whole.patternActive {machine : Machine} {region : RegionId}
    (whole : machine.Whole region)
    (wired : machine.Wired) (coherent : machine.Coherent)
    (childless : ∀ nested, ¬machine.Childless nested)
    (marked : ∀ nested, machine.Within region nested →
      ∃ history, machine.historyOf? nested = some history) :
    machine.PatternActive region (machine.Occupies region) := by
  refine { inside := fun state occupies => occupies.1, top := ?_, filled := ?_, around := ?_
           alone := ?_, plain := ?_, marked := marked
           patternActive := fun state inside =>
             ⟨fun active => ⟨inside, active⟩, fun occupies => occupies.2⟩ }
  · obtain ⟨child, contained, _, active⟩ := exists_child_of_not_childless whole.active
      (childless region)
    exact ⟨child, contained, .member contained, active⟩
  · intro owner nested occupies owned
    have active := whole.full owner nested occupies.1 occupies.2 owned
    obtain ⟨child, contained, _, childActive⟩ :=
      exists_child_of_not_childless active (childless nested)
    exact ⟨child, contained, .deeper contained owned occupies.1, childActive⟩
  · intro state nested owner occupies contained owned
    have regionActive := coherent.container_active wired occupies.2 contained
    rcases (occupies.1.within_container contained).inside_owner owned with same | inside
    · exact Or.inl same
    · exact Or.inr ⟨inside, coherent.owner_active regionActive owned⟩
  · intro nested one other containedOne containedOther occupiesOne occupiesOther
    exact coherent.single nested one other containedOne containedOther occupiesOne.2 occupiesOther.2
  · intro state occupies
    obtain ⟨nested, contained, _⟩ := inside_iff.mp occupies.1
    have regionActive := coherent.container_active wired occupies.2 contained
    obtain ⟨child, containedChild, normal, childActive⟩ :=
      exists_child_of_not_childless regionActive (childless nested)
    obtain rfl := coherent.single nested child state containedChild contained childActive occupies.2
    obtain ⟨node, found, kind⟩ := kindOf?_eq_some.mp normal
    exact ⟨node, found, kind, whole.lasting child node occupies.1 occupies.2 found⟩

end Machine

namespace Request

variable {request : Request} {before after : Machine} {region : RegionId}

private theorem Leaves.unique {machine : Machine} {one other : StateId}
    (leavesOne : request.Leaves machine one) (leavesOther : request.Leaves machine other) :
    one = other := by
  cases request with
  | finish | completion _ => exact leavesOne.trans leavesOther.symm
  | trigger transition memo =>
      obtain ⟨ends, resolved, rfl⟩ := leavesOne
      obtain ⟨ends', resolved', rfl⟩ := leavesOther
      rw [resolved] at resolved'
      rw [Except.ok.inj resolved']
  | triggerNamed name memo =>
      obtain ⟨transition, ends, known, resolved, rfl⟩ := leavesOne
      obtain ⟨transition', ends', known', resolved', rfl⟩ := leavesOther
      rw [known] at known'
      obtain rfl := Option.some.inj known'
      rw [resolved] at resolved'
      rw [Except.ok.inj resolved']
  | start | frame _ _ | advance _ | construct _ | setData _ _ => exact leavesOne.elim

private theorem Returns.fullyInstalled
    (returns : (Request.construct (.regionAddHistory region .deep)).Returns before (.ok ()) after)
    (formed : before.Formed) :
    ∀ nested, after.Within region nested → ∃ history, after.historyOf? nested = some history := by
  have ends (depth : Nat) :
      Ends ((Request.construct (.regionAddHistory region .deep)).run depth) before
        (fun _ after => ∀ nested, after.Within region nested →
          ∃ history, after.historyOf? nested = some history) (fun _ _ => True) := by
    unfold run Construction.call
    rw [ends_adaptExcept, ends_discard]
    exact Construct.ends_regionAddHistory_deep formed
  rcases returns.ends ends with ⟨_, fullyInstalled⟩ | ⟨_, isError, _⟩
  · exact fullyInstalled
  · cases isError

private theorem Evolves.fullyInstalled (evolves : request.Evolves before after)
    (closed : ∀ nested, after.Within region nested → before.Within region nested)
    (fullyInstalled : ∀ nested, before.Within region nested →
      ∃ history, before.historyOf? nested = some history) :
    ∀ nested, after.Within region nested → ∃ history, after.historyOf? nested = some history := by
  intro nested within
  obtain ⟨history, marked⟩ := fullyInstalled nested (closed nested within)
  rcases evolves with becomes | changes
  · exact ⟨history, becomes.grown.historyOf? marked⟩
  · exact ⟨history, by rw [changes.sameChart.historyOf?]; exact marked⟩

section Calls

variable {chosen : StateId → Prop} (returns : request.Returns before (.ok ()) after)
variable (formed : before.Formed) (linked : before.Linked) (calm : before.Calm True)
variable (coherent : before.Coherent)
include returns formed linked calm coherent

private theorem Returns.fromStored
    (closed : ∀ nested, after.Within region nested → before.Within region nested)
    (patternStored : before.PatternStored region chosen) :
    ∃ events, Machine.Told before after events ∧ after.PatternAfter region chosen events := by
  cases runs : request.runs with
  | false =>
      rcases returns.prepares formed runs with becomes | still
      · refine ⟨[], ?_, Or.inl ⟨List.forall_mem_nil _,
          patternStored.of_grown becomes.grown formed.toWired becomes.formed.toWired
          coherent closed⟩⟩
        rw [Machine.Told, becomes.grown.journal, List.append_nil]
      · obtain ⟨events, told, fromStored⟩ := (Run.PatternKept.still still).fromStored
        exact ⟨events, told, fromStored patternStored⟩
  | true =>
      have served := returns.served runs (Run.respects_patternKept region chosen)
        (formed.orderly linked calm) coherent
      rcases served with uneventful | ⟨_, settled⟩ | ⟨top, _, _, departed⟩
      · obtain ⟨events, told, fromStored⟩ := (Run.PatternKept.still uneventful.toStill).fromStored
        exact ⟨events, told, fromStored patternStored⟩
      · obtain ⟨events, told, fromStored⟩ := settled.relates.fromStored
        exact ⟨events, told, fromStored patternStored⟩
      · exact departed.fromStored fun ready empty touches emptied =>
          (patternStored.of_still touches.toStill).of_emptied emptied

/-- An active pattern is stored when a state around it is left, and may be resumed by the same call.
-/
theorem Returns.fromStored_left {owner : StateId} (owned : before.ownerOf? region = some owner)
    (leaves : leaving owner before request (.ok ()) after)
    (patternActive : before.PatternActive region chosen) :
    ∃ events, Machine.Told before after events ∧ after.PatternAfter region chosen events := by
  obtain ⟨top, events, name, leavesTop, below, told, isLeft⟩ := leaves
  have runs : request.runs = true := by
    cases request with
    | construct _ | setData _ _ => exact leavesTop.elim
    | _ => rfl
  have served := returns.served runs (Run.respects_patternKept region chosen)
    (formed.orderly linked calm) coherent
  rcases served with uneventful | ⟨never, _⟩ | ⟨top', leavesTop', _, departed⟩
  · obtain ⟨others, toldOthers, quiet⟩ := uneventful.told
    rw [told.unique toldOthers] at isLeft
    have silent := quiet _ isLeft
    cases silent
  · exact absurd leavesTop (never top)
  · obtain rfl := leavesTop.unique leavesTop'
    refine departed.fromStored fun ready empty touches emptied => ?_
    have same := touches.sameChart
    have activeReady := patternActive.of_kept same fun state _ => touches.toStill.states state
    exact activeReady.falls_patternStored (by rw [same.ownerOf?]; exact owned)
      (same.below.mpr below)
      emptied

end Calls

end Request

namespace Machine

section PatternAfter

variable {machine : Machine} {region : RegionId} {chosen : StateId → Prop} {events : List Event}

private theorem PatternAfter.patternStored
    (patternAfter : machine.PatternAfter region chosen events)
    (quiet : machine.NotEntered region events) : machine.PatternStored region chosen := by
  rcases patternAfter with ⟨_, patternStored⟩ | ⟨_, entered, _⟩
  · exact patternStored
  · exact absurd quiet entered.not_notEntered

private theorem PatternAfter.patternActive
    (patternAfter : machine.PatternAfter region chosen events) {history : StateId}
    (marked : machine.historyOf? region = some history)
    (entered : machine.FirstEntered region events history) :
    machine.PatternActive region chosen := by
  rcases patternAfter with ⟨quiet, _⟩ | ⟨first, enteredFirst, resumesPatterns⟩
  · exact absurd quiet entered.not_notEntered
  · rw [entered.unique enteredFirst] at marked
    exact resumesPatterns marked

end PatternAfter

end Machine

private theorem ComesBack.session {owner : StateId} {region : RegionId} {before after : Machine}
    (comesBack : ComesBack owner region before after) : Session (keeping region) before after := by
  rcases comesBack with ⟨request, answer, returns, meets⟩ |
    ⟨left, last, ⟨request, answer, returns, meets⟩, session, ⟨request', answer', returns', meets'⟩⟩
  · exact Relation.ReflTransGen.single ⟨request, answer, returns, meets.2.1⟩
  · exact (Relation.ReflTransGen.head ⟨request, answer, returns, meets.2.1⟩
      (session.weaken fun _ _ _ _ resting => resting.1)).tail
      ⟨request', answer', returns', meets'.1⟩

private theorem ComesBack.patternActive {owner : StateId} {region : RegionId}
    {chosen : StateId → Prop}
    {before after : Machine} (comesBack : ComesBack owner region before after)
    (formed : before.Formed) (linked : before.Linked) (calm : after.Calm True)
    (coherent : before.Coherent) (owned : before.ownerOf? region = some owner)
    (patternActive : before.PatternActive region chosen) : after.PatternActive region chosen := by
  have calmBefore := comesBack.session.calm formed calm
  rcases comesBack with ⟨request, _, returns, leaves, ⟨rfl, _⟩, events, history, told,
    marked, entered⟩ |
    ⟨left, last, ⟨request, _, returns, leaves, ⟨rfl, _⟩, events, told, quiet⟩, session,
      ⟨request', _, returns', ⟨rfl, closed⟩, events', history, told', marked, entered⟩⟩
  · obtain ⟨others, toldOthers, patternAfter⟩ :=
      returns.fromStored_left formed linked calmBefore coherent owned leaves patternActive
    rw [toldOthers.unique told] at patternAfter
    exact patternAfter.patternActive marked entered
  · obtain ⟨others, toldOthers, patternAfter⟩ :=
      returns.fromStored_left formed linked calmBefore coherent owned leaves patternActive
    rw [toldOthers.unique told] at patternAfter
    have formedLeft := (returns.evolves formed).formed formed
    have linkedLeft := (returns.evolves formed).linked linked
    have formedLast := session.formed formedLeft
    have linkedLast := session.linked formedLeft linkedLeft
    have calmLast := (returns'.evolves formedLast).calm calm
    have sleeps := session.keeps_calmly formedLeft linkedLeft calmLast
      (fun current => current.Coherent ∧ current.PatternStored region chosen)
      ⟨returns.coherent formed linked calmBefore coherent, patternAfter.patternStored quiet⟩
      fun first request answer next formed linked calm returns meets kept => by
        obtain ⟨⟨rfl, closed⟩, events, told, quiet⟩ := meets
        obtain ⟨others, toldOthers, patternAfter⟩ :=
          returns.fromStored formed linked calm kept.1 closed kept.2
        rw [toldOthers.unique told] at patternAfter
        exact ⟨returns.coherent formed linked calm kept.1, patternAfter.patternStored quiet⟩
    obtain ⟨others', toldOthers', patternAfter'⟩ :=
      returns'.fromStored formedLast linkedLast calmLast sleeps.1 closed sleeps.2
    rw [toldOthers'.unique told'] at patternAfter'
    exact patternAfter'.patternActive marked entered

namespace Machine

/-- A machine with quiet callbacks recalls the configuration of a region with a deep history: if the
whole region is active when a state around it is left, the same states are active inside it once it
has been entered again through its history. -/
theorem Reached.deep_history_recalls {start installed before after : Machine} {owner : StateId}
    {region : RegionId} (reached : start.Reached answered)
    (installs : (Request.construct (.regionAddHistory region .deep)).Returns start (.ok ())
      installed)
    (session : Session (keeping region) installed before)
    (owned : before.ownerOf? region = some owner) (whole : before.Whole region)
    (comesBack : ComesBack owner region before after) (calm : after.Calm True) (state : StateId) :
    after.Occupies region state ↔ before.Occupies region state := by
  have evolves := installs.evolves reached.formed
  have formedInstalled := evolves.formed reached.formed
  have linkedInstalled := evolves.linked reached.linked
  have formed := session.formed formedInstalled
  have linked := session.linked formedInstalled linkedInstalled
  have calmBefore := comesBack.session.calm formed calm
  have reachedBefore : before.Reached answered := by
    obtain ⟨name, names, earlier⟩ := reached
    exact ⟨name, names, (earlier.tail ⟨_, _, installs, rfl⟩).trans
      (session.weaken fun _ _ _ _ keeps => keeps.1)⟩
  have coherent := reachedBefore.coherent calmBefore
  have smoothly : before.Reached smooth := reachedBefore.weaken fun _ _ _ _ isOk _ => Or.inl isOk
  have marked := session.keeps_calmly formedInstalled linkedInstalled calmBefore
    (fun current => ∀ nested, current.Within region nested →
      ∃ history, current.historyOf? nested = some history)
    (installs.fullyInstalled reached.formed)
    fun first request answer last formed _ _ returns meets kept =>
      (returns.evolves formed).fullyInstalled meets.2 kept
  have patternActive := comesBack.patternActive formed linked calm coherent owned
    (whole.patternActive formed.toWired coherent (smoothly.not_childless calmBefore) marked)
  constructor
  · intro occupies
    exact (patternActive.patternActive state occupies.1).mp occupies.2
  · intro occupied
    have inside := patternActive.inside state occupied
    exact ⟨inside, (patternActive.patternActive state inside).mpr occupied⟩

/-- A player with a track that goes on in two regions at once. -/
def playerRequests : List Request :=
  [.construct (.createState (.plain "playing")), .construct (.addState ⟨3⟩),
    .construct (.createState (.plain "stopped")), .construct (.addState ⟨4⟩),
    .construct (.createState (.plain "track")), .construct (.addChildState ⟨3⟩ ⟨5⟩),
    .construct (.createState (.plain "intro")), .construct (.addChildState ⟨5⟩ ⟨8⟩),
    .construct (.createState (.plain "verse")), .construct (.addChildState ⟨5⟩ ⟨11⟩),
    .construct (.appendRegion ⟨5⟩),
    .construct (.createState (.plain "loud")), .construct (.regionAddState ⟨3⟩ ⟨14⟩),
    .construct (.createState (.plain "soft")), .construct (.regionAddState ⟨3⟩ ⟨15⟩),
    .construct (.createTransition (.initial "playing")), .construct (.addTransition ⟨0⟩),
    .construct (.createTransition (.initial "track")), .construct (.regionAddTransition ⟨1⟩ ⟨1⟩),
    .construct (.createTransition (.initial "intro")), .construct (.regionAddTransition ⟨2⟩ ⟨2⟩),
    .construct (.createTransition (.initial "loud")), .construct (.regionAddTransition ⟨3⟩ ⟨3⟩),
    .construct (.createTransition (.simple "next" "intro" "verse")),
    .construct (.regionAddTransition ⟨2⟩ ⟨4⟩),
    .construct (.createTransition (.simple "mute" "loud" "soft")),
    .construct (.regionAddTransition ⟨3⟩ ⟨5⟩),
    .construct (.createTransition (.simple "stop" "playing" "stopped")),
    .construct (.addTransition ⟨6⟩),
    .construct (.createTransition (.simple "resume" "stopped" "playing")),
    .construct (.addTransition ⟨7⟩)]

def player : Machine :=
  Request.outcome 12 playerRequests (Machine.new "player" (.ofStem "auto"))

/-- The player with a deep history in the region of its track. -/
def playerInstalled : Machine :=
  Request.outcome 12 [.construct (.regionAddHistory ⟨1⟩ .deep)] player

def playerRunning : Machine :=
  Request.outcome 12 [.start, .trigger ⟨4⟩ .null, .trigger ⟨5⟩ .null] playerInstalled

def playerStopped : Machine :=
  Request.outcome 12 [.trigger ⟨6⟩ .null] playerRunning

def playerResumed : Machine :=
  Request.outcome 12 [.trigger ⟨7⟩ .null] playerStopped

private theorem player_plays :
    (Request.play 12 playerRequests (Machine.new "player" (.ofStem "auto"))).isSome = true ∧
      (Request.play 12 [.construct (.regionAddHistory ⟨1⟩ .deep)] player).isSome = true ∧
      (Request.play 12 [.start, .trigger ⟨4⟩ .null, .trigger ⟨5⟩ .null]
        playerInstalled).isSome = true ∧
      (Request.play 12 [.trigger ⟨6⟩ .null] playerRunning).isSome = true ∧
      (Request.play 12 [.trigger ⟨7⟩ .null] playerStopped).isSome = true := by
  decide +kernel

private theorem reached_player : player.Reached answered :=
  ⟨"player", .ofStem "auto", (session_outcome player_plays.1).weaken fun _ _ _ _ call => call.2⟩

private theorem returns_playerInstalled :
    (Request.construct (.regionAddHistory ⟨1⟩ .deep)).Returns player (.ok ()) playerInstalled :=
  returns_outcome player_plays.2.1

private theorem session_playerRunning : Session (keeping ⟨1⟩) playerInstalled playerRunning :=
  (session_outcome player_plays.2.2.1).keeping (by decide) ⟨1⟩

private theorem formed_playerRunning : playerRunning.Formed :=
  session_playerRunning.formed
    ((returns_playerInstalled.evolves reached_player.formed).formed reached_player.formed)

private theorem read_playerRunning :
    playerRunning.isRegionActive ⟨1⟩ = true ∧
      playerRunning.regions.toList.all (fun members => members.status.isActive) = true ∧
      playerRunning.isPlain = true ∧ playerRunning.ownerOf? ⟨1⟩ = some ⟨3⟩ ∧
      playerRunning.endpoints ⟨6⟩ = .ok ⟨⟨3⟩, ⟨4⟩⟩ ∧
      playerRunning.level ⟨4⟩ = playerRunning.level ⟨3⟩ := by
  decide +kernel

private theorem whole_playerRunning : playerRunning.Whole ⟨1⟩ := by
  obtain ⟨active, all, plain, _⟩ := read_playerRunning
  refine ⟨active, fun state nested _ _ owned => ?_, fun state node _ _ found => ?_⟩
  · obtain ⟨members, found, _⟩ := ownerOf?_eq_some.mp owned
    exact isRegionActive_iff.mpr ⟨members, found, List.all_eq_true.mp all members
      (Array.mem_toList_iff.mpr (Array.mem_of_getElem? found))⟩
  · exact (node_of_isPlain plain found).2.2.2

private theorem returns_playerStopped :
    (Request.trigger ⟨6⟩ .null).Returns playerRunning (.ok ()) playerStopped :=
  returns_outcome player_plays.2.2.2.1

private theorem returns_playerResumed :
    (Request.trigger ⟨7⟩ .null).Returns playerStopped (.ok ()) playerResumed :=
  returns_outcome player_plays.2.2.2.2

private theorem told_player :
    (playerStopped.journal.toList = playerRunning.journal.toList ++
        playerStopped.journal.toList.drop playerRunning.journal.size ∧
      .notice (.left ⟨3⟩ "playing") ∈
        playerStopped.journal.toList.drop playerRunning.journal.size ∧
      entries (playerStopped.journal.toList.drop playerRunning.journal.size) = [⟨4⟩]) ∧
    playerResumed.journal.toList = playerStopped.journal.toList ++
        playerResumed.journal.toList.drop playerStopped.journal.size ∧
      entries (playerResumed.journal.toList.drop playerStopped.journal.size) =
        [⟨3⟩, ⟨16⟩, ⟨5⟩, ⟨17⟩, ⟨11⟩, ⟨18⟩, ⟨15⟩] ∧
      playerResumed.historyOf? ⟨1⟩ = some ⟨16⟩ ∧ playerResumed.containerOf? ⟨16⟩ = some ⟨1⟩ := by
  decide +kernel

private theorem serves_playerStopped :
    Serves ((leaving ⟨3⟩).and (resting ⟨1⟩)) playerRunning playerStopped := by
  obtain ⟨_, _, _, owned, ends, level⟩ := read_playerRunning
  obtain ⟨told, left, entered⟩ := told_player.1
  have same := (returns_playerStopped.changes rfl).sameChart
  refine ⟨_, _, returns_playerStopped,
    ⟨⟨3⟩, _, "playing", ⟨_, ends, rfl⟩, Below.refl _ _, told, left⟩,
    ⟨rfl, fun _ => same.within.mp⟩, _, told, ?_⟩
  unfold NotEntered
  rw [entered, List.forall_mem_singleton, same.inside]
  intro inside
  have below := formed_playerRunning.toWired.level_lt_of_inside owned inside
  omega

private theorem serves_playerResumed : Serves (resuming ⟨1⟩) playerStopped playerResumed := by
  obtain ⟨told, entered, marked, contained⟩ := told_player.2
  have same := (returns_playerResumed.changes rfl).sameChart
  have around := (returns_playerStopped.changes rfl).sameChart.trans same
  refine ⟨_, _, returns_playerResumed, ⟨rfl, fun _ => same.within.mp⟩, _, ⟨16⟩, told, marked,
    .member contained, [⟨3⟩], [⟨5⟩, ⟨17⟩, ⟨11⟩, ⟨18⟩, ⟨15⟩], entered, ?_⟩
  rw [List.forall_mem_singleton, around.inside]
  exact formed_playerRunning.toWired.not_inside_own_region read_playerRunning.2.2.2.1

/-- The player is stopped, and when it resumes it goes on where it was in both regions. -/
theorem player_recalls :
    player.Reached answered ∧
      (Request.construct (.regionAddHistory ⟨1⟩ .deep)).Returns player (.ok ()) playerInstalled ∧
      Session (keeping ⟨1⟩) playerInstalled playerRunning ∧
      playerRunning.ownerOf? ⟨1⟩ = some ⟨3⟩ ∧ playerRunning.Whole ⟨1⟩ ∧
      ComesBack ⟨3⟩ ⟨1⟩ playerRunning playerResumed ∧ playerResumed.Calm True ∧
      ∀ state, playerResumed.Occupies ⟨1⟩ state ↔ playerRunning.Occupies ⟨1⟩ state := by
  obtain ⟨_, _, plain, owned, _⟩ := read_playerRunning
  have comesBack : ComesBack ⟨3⟩ ⟨1⟩ playerRunning playerResumed :=
    Or.inr ⟨_, _, serves_playerStopped, Relation.ReflTransGen.refl, serves_playerResumed⟩
  have same := (returns_playerStopped.changes rfl).sameChart.trans
    (returns_playerResumed.changes rfl).sameChart
  have calm : playerResumed.Calm True := (calm_of_isPlain plain).of_sameChart same
  exact ⟨reached_player, returns_playerInstalled, session_playerRunning, owned, whole_playerRunning,
    comesBack, calm, Reached.deep_history_recalls reached_player returns_playerInstalled
      session_playerRunning owned whole_playerRunning comesBack calm⟩

end Machine

end Chart
