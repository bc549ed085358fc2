import Chart.Proofs.Run.Joining
import Chart.Proofs.Session.Configuration

set_option autoImplicit false

/-!
Joins in a session. As long as all calls that run a calm machine are answered, the regions of a
state join at most once between two entries of the state, only when all of them are inactive and
nothing that was begun at the state is unfinished, and never too late: between the calls no active
state waits for its regions to join.
-/

namespace Chart

def answeredRuns : Terms := fun _ request answer _ =>
  request.runs = true → answer = .ok ()

namespace Machine

variable {before after : Machine}

theorem NoneBegun.refl (machine : Machine) : NoneBegun [] machine machine where
  same := SameChart.refl machine
  told := Told.refl machine
  ends := by simp
  states := fun _ active => active
  regions := fun _ active => active

theorem NoneBegun.trans {middle : Machine} {early late : List Event}
    (first : NoneBegun early before middle) (second : NoneBegun late middle after) :
    NoneBegun (early ++ late) before after where
  same := first.same.trans second.same
  told := first.told.trans second.told
  ends := fun event member => (List.mem_append.mp member).elim (first.ends event)
    (second.ends event)
  states := fun state active => first.states state (second.states state active)
  regions := fun region active => first.regions region (second.regions region active)

structure Rested (machine : Machine) : Prop extends JoinedIdle machine where
  due : ∀ owner, machine.Due owner

private theorem Rested.of_grown (rested : before.Rested) (grown : Grown before after)
    (formed : before.Formed) (wired : after.Wired) : after.Rested := by
  -- A region of a state was one of its regions before if it existed.
  have listedBefore {owner : StateId} {region : RegionId} (listed : region ∈ after.regionsOf owner)
      (known : (before.region? region).isSome = true) : region ∈ before.regionsOf owner := by
    obtain ⟨members, found⟩ := Option.isSome_iff_exists.mp known
    have owned : before.ownerOf? region = some members.owner :=
      ownerOf?_eq_some.mpr ⟨members, found, rfl⟩
    have ownedAfter := grown.ownerOf? owned
    rw [(wired.owned region owner).mpr listed] at ownedAfter
    obtain rfl := Option.some.inj ownedAfter
    exact (formed.owned region members.owner).mp owned
  have kept {owner : StateId} {region : RegionId} (listed : region ∈ before.regionsOf owner) :
      region ∈ after.regionsOf owner :=
    (wired.owned region owner).mp (grown.ownerOf? ((formed.owned region owner).mpr listed))
  refine { idle := ?_, known := ?_, due := ?_ }
  · intro owner active joined region listed
    rw [grown.isStateActive] at active
    rw [grown.journal] at joined
    rw [grown.isRegionActive]
    refine Bool.eq_false_iff.mpr fun isActive => ?_
    obtain ⟨members, found, _⟩ := isRegionActive_iff.mp isActive
    have inactive :=
      rested.idle owner active joined region (listedBefore listed (by rw [found]; rfl))
    rw [isActive] at inactive
    cases inactive
  · intro event member region opens
    rw [grown.journal] at member
    obtain ⟨members, found⟩ := Option.isSome_iff_exists.mp (rested.known event member region opens)
    obtain ⟨members', found', _⟩ := grown.regions region members found
    rw [found']
    rfl
  · rintro owner active ⟨region, listed, opened⟩ inactive
    rw [grown.isStateActive] at active
    rw [grown.journal] at opened ⊢
    obtain ⟨event, member, opens⟩ := opened
    refine rested.due owner active ⟨region, listedBefore listed
      (rested.known event (mem_of_mem_since member) region opens), event, member, opens⟩
      fun other isListed => ?_
    rw [← grown.isRegionActive]
    exact inactive other (kept isListed)

private theorem rested_new (name : String) (names : NameSource) :
    (Machine.new name names).Rested := by
  obtain ⟨bare, grown, _, _, _, noJournal, _⟩ := grown_new name names
  have journal : (Machine.new name names).journal.toList = [] := by
    rw [grown.journal, noJournal]
  refine { idle := ?_, known := ?_, due := ?_ }
  · rintro owner _ ⟨event, member, _⟩
    rw [journal] at member
    cases member
  · intro event member
    rw [journal] at member
    cases member
  · rintro owner _ ⟨_, _, event, member, _⟩
    rw [journal] at member
    cases member

end Machine

/-- What is recorded of joins once a state has been left as a whole: its regions wait no longer. -/
theorem Run.joining_left {mayFail : Prop} {before ready empty : Machine} {state : StateId}
    (orderly : before.Orderly mayFail) (rested : before.Rested)
    (touches : Machine.TouchesOnly state before ready)
    (emptied : Machine.Emptied (ready.Below state) (ready.Beneath state) ready empty) :
    ∃ events, Machine.NoneBegun events before empty ∧ Machine.Joining before empty events ∧
      ∀ owner, empty.Due owner := by
  obtain ⟨early, toReady⟩ := touches.toStill.noneBegun
  obtain ⟨late, toEmpty⟩ := emptied.noneBegun
  have noneBegun := toReady.trans toEmpty
  refine ⟨_, noneBegun, noneBegun.joining (noneBegun.joinedIdle rested.toJoinedIdle),
    fun owner => ?_⟩
  refine noneBegun.due (rested.due owner) fun active region listed isActive => ?_
  have ownedReady : ready.ownerOf? region = some owner := by
    rw [touches.sameChart.ownerOf?]
    exact (orderly.owned region owner).mpr listed
  -- The regions that were closed belong to states that were left.
  rw [emptied.regionStatuses region ?_]
  · rw [touches.isRegionActive]
    exact isActive
  · rintro ⟨owner', owned', below⟩
    rw [ownedReady] at owned'
    obtain rfl := Option.some.inj owned'
    rw [emptied.left owner below] at active
    cases active

theorem Machine.Rested.joining {machine : Machine} (rested : machine.Rested) :
    Machine.Joining machine machine [] :=
  (Machine.NoneBegun.refl machine).joining rested.toJoinedIdle

private theorem Run.Served.joining {mayFail : Prop} {leaves : StateId → Prop}
    {before after : Machine}
    (served : Run.Served (Run.KeepsJoins before) leaves before after)
    (orderly : before.Orderly mayFail)
    (rested : before.Rested) :
    (∃ events, Machine.Joining before after events) ∧ ∀ owner, after.Due owner := by
  rcases served with uneventful | ⟨_, settled⟩ | ⟨state, _, _, ready, empty, touches,
    emptied, settled⟩
  · exact Run.keepsJoins_still uneventful.toStill ⟨⟨_, rested.joining⟩, rested.due⟩
  · exact settled.relates ⟨⟨_, rested.joining⟩, rested.due⟩
  · obtain ⟨events, _, joining, due⟩ := Run.joining_left orderly rested touches emptied
    exact settled.relates ⟨⟨events, joining⟩, due⟩

section Calls

variable {request : Request} {before after : Machine}

private theorem Request.Returns.joining (returns : request.Returns before (.ok ()) after)
    (runs : request.runs = true) (formed : before.Formed) (linked : before.Linked)
    (calm : before.Calm True) (coherent : before.Coherent) (rested : before.Rested) :
    (∃ events, Machine.Joining before after events) ∧ ∀ owner, after.Due owner := by
  have orderly := formed.orderly linked calm
  have served := returns.served runs (Run.respects_keepsJoins True before) orderly coherent
  exact served.joining orderly rested

private theorem Request.Returns.rested {answer : Except MachineError Unit}
    (returns : request.Returns before answer after) (formed : before.Formed)
    (linked : before.Linked) (calm : before.Calm True) (coherent : before.Coherent)
    (meets : answeredRuns before request answer after) (rested : before.Rested) :
    after.Rested := by
  cases runs : request.runs with
  | true =>
      rw [meets runs] at returns
      obtain ⟨⟨events, joining⟩, due⟩ := returns.joining runs formed linked calm coherent rested
      exact { toJoinedIdle := joining.toJoinedIdle, due := due }
  | false =>
      rcases returns.prepares formed runs with becomes | still
      · exact rested.of_grown becomes.grown formed becomes.formed.toWired
      · obtain ⟨late, noneBegun⟩ := still.noneBegun
        refine { toJoinedIdle := noneBegun.joinedIdle rested.toJoinedIdle
                 due := fun owner => noneBegun.due (rested.due owner) fun _ region _ active => ?_ }
        rw [still.isRegionActive]
        exact active

end Calls

namespace Machine

theorem Reached.rested {machine : Machine} (reached : machine.Reached answeredRuns)
    (calm : machine.Calm True) : machine.Rested := by
  obtain ⟨name, names, session⟩ := reached
  refine (session.keeps_calmly (formed_new name names) (linked_new name names) calm
    (fun current => current.Coherent ∧ current.Rested)
    ⟨coherent_new name names, rested_new name names⟩ ?_).2
  intro first request answer last formed linked calmFirst returns meets kept
  exact ⟨returns.coherent formed linked calmFirst kept.1,
    returns.rested formed linked calmFirst kept.1 meets kept.2⟩

/-- Between answered calls no active state waits for its regions to join. In the next answered call
the regions of a state join only while the state is active and all of them are inactive, for the
first time since the state was entered, and after whatever the call began at the state or below it
has been finished: every region has been opened, and every opened one has received a child. -/
theorem Reached.regions_join {machine : Machine} (reached : machine.Reached answeredRuns)
    (calm : machine.Calm True) :
    (∀ owner, machine.isStateActive owner = true →
      (∃ region ∈ machine.regionsOf owner, OpenedSince machine.journal.toList owner region) →
      (∀ region ∈ machine.regionsOf owner, machine.isRegionActive region = false) →
      JoinedSince machine.journal.toList owner) ∧
    ∀ request after early late owner name, Request.Returns request machine (.ok ()) after →
      Told machine after (early ++ .notice (.joined owner name) :: late) →
      after.Completed machine.journal.toList early owner := by
  have rested := reached.rested calm
  have formed := reached.formed
  have coherent := reached.coherent calm
  refine ⟨rested.due, fun request after early late owner name returns told => ?_⟩
  cases runs : request.runs with
  | true =>
      obtain ⟨⟨events, joining⟩, _⟩ :=
        returns.joining runs formed reached.linked calm coherent rested
      exact joining.completed early late owner name (joining.told.unique told)
  | false =>
      have quiet : ∃ events, Told machine after events ∧
        ∀ event ∈ events, event.begins = false := by
        rcases returns.prepares formed runs with becomes | still
        · refine ⟨[], ?_, by simp⟩
          rw [Told, becomes.grown.journal, List.append_nil]
        · obtain ⟨late, noneBegun⟩ := still.noneBegun
          exact ⟨late, noneBegun.told, noneBegun.ends⟩
      obtain ⟨events, also, ends⟩ := quiet
      have ended := ends (.notice (.joined owner name)) (by rw [also.unique told]; simp)
      cases ended

/-- A state with two regions, whose only states lead to the final ones. -/
def forkRequests : List Request :=
  [.construct (.createState (.plain "work")), .construct (.addState ⟨3⟩),
    .construct (.appendRegion ⟨3⟩), .construct (.appendRegion ⟨3⟩),
    .construct (.createState (.plain "left")), .construct (.regionAddState ⟨1⟩ ⟨8⟩),
    .construct (.createState (.plain "right")), .construct (.regionAddState ⟨2⟩ ⟨9⟩),
    .construct (.createTransition (.initial "work")), .construct (.addTransition ⟨0⟩),
    .construct (.createTransition (.initial "left")), .construct (.regionAddTransition ⟨1⟩ ⟨1⟩),
    .construct (.createTransition (.initial "right")), .construct (.regionAddTransition ⟨2⟩ ⟨2⟩),
    .construct (.createTransition
      { TransitionDefinition.anonymous with name := some "one", source := some "left" }),
    .construct (.regionAddTransition ⟨1⟩ ⟨3⟩),
    .construct (.createTransition
      { TransitionDefinition.anonymous with name := some "other", source := some "right" }),
    .construct (.regionAddTransition ⟨2⟩ ⟨4⟩), .start, .trigger ⟨3⟩ .null]

def fork : Machine :=
  Request.outcome 8 forkRequests (Machine.new "fork" (.ofStem "auto"))

def joinedFork : Machine :=
  Request.outcome 8 [.trigger ⟨4⟩ .null] fork

/-- The second region is the last one to be closed. -/
theorem fork_regions_join :
    fork.Reached answeredRuns ∧ fork.Calm True ∧
      (Request.trigger ⟨4⟩ .null).Returns fork (.ok ()) joinedFork ∧
      ∃ early late, Told fork joinedFork (early ++ .notice (.joined ⟨3⟩ "work") :: late) ∧
        joinedFork.Completed fork.journal.toList early ⟨3⟩ := by
  have reached : fork.Reached answeredRuns :=
    ⟨"fork", .ofStem "auto", (session_outcome (by decide +kernel)).weaken
      fun _ _ _ _ call _ => call.2⟩
  have calm : fork.Calm True := calm_of_isPlain (by decide +kernel)
  have returns : (Request.trigger ⟨4⟩ .null).Returns fork (.ok ()) joinedFork :=
    returns_outcome (by decide +kernel)
  have told : Told fork joinedFork (joinedFork.journal.toList.drop fork.journal.size) := by
    unfold Told
    decide +kernel
  have member : Event.notice (.joined ⟨3⟩ "work") ∈
      joinedFork.journal.toList.drop fork.journal.size := by
    decide +kernel
  obtain ⟨early, late, split⟩ := List.append_of_mem member
  rw [split] at told
  exact ⟨reached, calm, returns, early, late, told,
    (Reached.regions_join reached calm).2 _ _ early late _ _ returns told⟩

end Machine

end Chart
