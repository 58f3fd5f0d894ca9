import Mathlib.Tactic
import LoadBench.Proofs.Run.Scheduler
import LoadBench.Proofs.Run.User
import LoadBench.Proofs.Summary.LoadReport

/-!
# Load runs agree with the calls made in turn

`LoadRun.Step` says what each move of a run can do. From it follows what every run keeps
(`LoadRun.Sound`): every user walks in turn, and the walks noted are those of the users joined.
Whatever the order in which the users were joined, the report is that of users who walk one after
the other.

Results:
* `LoadRun.step?_eq_some_iff`: the moves that are possible, and the state after each.
* `LoadRun.Sound.step`: what one move keeps.
* `LoadRun.Noted.fill_perm`: the users on record are those in turn, the lost ones included.
* `LoadRun.exists_step`, `LoadRun.remaining_step`: a run goes on to its result, and ends.
* `Scheduler.runMix_runsInTurn`: an uncancelled run has the report of the users in turn, if its
  roster can be held.
-/

namespace LoadBench

namespace LoadRun

variable {m : Mix} {service : Nat → Nat → Nat → CallEnd} {r r' : LoadRun} {move : LoadMove}

/-! ## Moves -/

/-- A run that has taken note of the user at an index. -/
def noted (r : LoadRun) (m : Mix) (index : Nat) (u : User) (walks : List UserWalk)
    (events : List LoadEvent) : LoadRun :=
  { r with
    users := r.users.set index { u with task := .joined }
    walks := walks
    completed := r.completed + 1
    log := r.log ++ events ++ [.progress (r.completed + 1) r.users.length m.name] }

/-- The report that a run draws up. -/
def report (m : Mix) (r : LoadRun) (totalTimeMs : Float) : LoadReport :=
  .ofWalks m (fill (r.users.map (·.action.name)) r.walks) totalTimeMs

/-- What each move of a run needs, and the run after it. -/
inductive Step (m : Mix) (service : Nat → Nat → Nat → CallEnd) :
    LoadRun → LoadMove → LoadRun → Prop
  | cancel {r : LoadRun} (hlive : r.cancelled = false) :
    Step m service r .cancel { r with cancelled := true }
  | user {r : LoadRun} {index : Nat} {move : UserMove} {u u' : User} {events : List LoadEvent}
    (hrun : r.result = none) (hu : r.users[index]? = some u)
    (hmove : u.step? (service index) index r.cancelled move = some (u', events)) :
    Step m service r (.user index move)
      { r with users := r.users.set index u', log := r.log ++ events }
  | join {r : LoadRun} {index : Nat} {u : User} {walk : UserWalk} (hrun : r.result = none)
    (hu : r.users[index]? = some u) (htask : u.task = .ended (some walk))
    (hlive : r.cancelled = false) :
    Step m service r (.join index) (r.noted m index u (r.walks ++ [walk]) [])
  | joinLost {r : LoadRun} {index : Nat} {u : User} (hrun : r.result = none)
    (hu : r.users[index]? = some u) (htask : u.task = .crashed) (hlive : r.cancelled = false) :
    Step m service r (.join index) (r.noted m index u r.walks [.lost index])
  | joinStopped {r : LoadRun} {index : Nat} {u : User} (hrun : r.result = none)
    (hu : r.users[index]? = some u) (htask : u.task = .ended none) :
    Step m service r (.join index) (r.stop m)
  | conclude {r : LoadRun} (totalTimeMs : Float) (hrun : r.result = none)
    (hlive : r.cancelled = false) (hall : r.users.all User.isJoined = true) :
    Step m service r (.conclude totalTimeMs)
      { r with
        result := some (.ok (r.report m totalTimeMs))
        log := r.log ++
          [.entered .aggregating, .entered .complete, .completed (r.report m totalTimeMs)] }
  | giveUp {r : LoadRun} (hrun : r.result = none) (hcancel : r.cancelled = true) :
    Step m service r .giveUp (r.stop m)

theorem step_of_step? (h : step? m service r move = some r') : Step m service r move r' := by
  cases move with
  | cancel =>
    simp only [step?] at h
    split_ifs at h with hcancel
    cases h
    exact .cancel (by simpa using hcancel)
  | user index move =>
    simp only [step?, advance?] at h
    split_ifs at h with hrun
    rw [Option.not_isSome_iff_eq_none] at hrun
    obtain ⟨u, hu, h⟩ := Option.bind_eq_some_iff.mp h
    obtain ⟨⟨u', events⟩, hmove, h⟩ := Option.bind_eq_some_iff.mp h
    cases h
    exact .user hrun hu hmove
  | join index =>
    simp only [step?, advance?] at h
    split_ifs at h with hrun
    rw [Option.not_isSome_iff_eq_none] at hrun
    rw [join?] at h
    obtain ⟨u, hu, h⟩ := Option.bind_eq_some_iff.mp h
    cases htask : u.task with
    | ended walk =>
      cases walk with
      | none => simp only [htask] at h; cases h; exact .joinStopped hrun hu htask
      | some walk =>
        simp only [htask] at h
        split_ifs at h with hcancel
        cases h
        exact .join hrun hu htask (by simpa using hcancel)
    | crashed =>
      simp only [htask] at h
      split_ifs at h with hcancel
      cases h
      exact .joinLost hrun hu htask (by simpa using hcancel)
    | _ => simp only [htask, reduceCtorEq] at h
  | conclude totalTimeMs =>
    simp only [step?, advance?] at h
    split_ifs at h with hrun hno
    rw [Option.not_isSome_iff_eq_none] at hrun
    rw [Bool.or_eq_true, not_or, Bool.not_eq_true, Bool.not_eq_true', Bool.not_eq_false] at hno
    cases h
    exact .conclude totalTimeMs hrun hno.1 hno.2
  | giveUp =>
    simp only [step?, advance?] at h
    split_ifs at h with hrun hcancel
    rw [Option.not_isSome_iff_eq_none] at hrun
    cases h
    exact .giveUp hrun hcancel

theorem Step.step? (h : Step m service r move r') : step? m service r move = some r' := by
  cases h with
  | cancel hlive => simp [LoadRun.step?, hlive]
  | user hrun hu hmove => simp [LoadRun.step?, advance?, hrun, hu, hmove]
  | join hrun hu htask hlive =>
    simp [LoadRun.step?, advance?, join?, hrun, hu, htask, hlive, noted]
  | joinLost hrun hu htask hlive =>
    simp [LoadRun.step?, advance?, join?, hrun, hu, htask, hlive, noted]
  | joinStopped hrun hu htask => simp [LoadRun.step?, advance?, join?, hrun, hu, htask]
  | conclude totalTimeMs hrun hlive hall =>
    simp only [LoadRun.step?, advance?, hrun, hlive, hall, report]
    rfl
  | giveUp hrun hcancel => simp [LoadRun.step?, advance?, hrun, hcancel]

theorem step?_eq_some_iff : step? m service r move = some r' ↔ Step m service r move r' :=
  ⟨step_of_step?, Step.step?⟩

/-! ## The users on record -/

theorem mem_fill {roster : List String} {walks : List UserWalk} {w : UserWalk} :
    w ∈ fill roster walks ↔ w ∈ walks ∨ ∃ (i : Nat) (name : String), roster[i]? = some name ∧
      (∀ v ∈ walks, v.userIndex ≠ i) ∧ w = .lost i name := by
  simp only [fill, List.mem_append, List.mem_filter, List.mem_mapIdx, Bool.not_eq_true',
    List.any_eq_false, beq_iff_eq]
  refine or_congr_right ⟨?_, ?_⟩
  · rintro ⟨⟨i, hi, rfl⟩, hfresh⟩
    exact ⟨i, _, List.getElem?_eq_getElem hi, hfresh, rfl⟩
  · rintro ⟨i, name, hname, hfresh, rfl⟩
    obtain ⟨hi, rfl⟩ := List.getElem?_eq_some_iff.mp hname
    exact ⟨⟨i, hi, rfl⟩, hfresh⟩

theorem map_userIndex_lost (roster : List String) :
    (roster.mapIdx fun index action => UserWalk.lost index action).map (·.userIndex) =
      List.range roster.length := by
  apply List.ext_getElem (by simp)
  simp [UserWalk.lost]

theorem fill_distinct (roster : List String) {walks : List UserWalk}
    (h : (walks.map (·.userIndex)).Nodup) :
    ((fill roster walks).map (·.userIndex)).Nodup := by
  rw [fill, List.map_append, List.nodup_append]
  refine ⟨h, ?_, ?_⟩
  · refine (List.filter_sublist.map _).nodup ?_
    rw [map_userIndex_lost]
    exact List.nodup_range
  · rintro i hi j hj rfl
    obtain ⟨w, hw, rfl⟩ := List.mem_map.mp hi
    obtain ⟨l, hl, hindex⟩ := List.mem_map.mp hj
    have hfresh := (List.mem_filter.mp hl).2
    rw [Bool.not_eq_true', List.any_eq_false] at hfresh
    exact hfresh w hw (by simp [hindex])

/-- The walks noted are those of the users joined, each once, apart from the users who were lost. -/
structure Noted (service : Nat → Nat → Nat → CallEnd) (users : List User)
    (walks : List UserWalk) : Prop where
  distinct : (walks.map (·.userIndex)).Nodup
  walk : ∀ w ∈ walks, ∃ u times, users[w.userIndex]? = some u ∧ u.isJoined = true ∧
    u.action.fits = true ∧ w = u.action.walkInTurn w.userIndex (service w.userIndex) times
  complete : ∀ (i : Nat) (u : User), users[i]? = some u → u.isJoined = true →
    u.action.fits = true → ∃ w ∈ walks, w.userIndex = i

namespace Noted

variable {users : List User} {walks : List UserWalk} {index : Nat} {u v : User}

theorem fresh (h : Noted service users walks) (hu : users[index]? = some u)
    (hjoined : u.isJoined = false) {w : UserWalk} (hw : w ∈ walks) : index ≠ w.userIndex := by
  rintro rfl
  obtain ⟨u', _, hu', hjoined', -, -⟩ := h.walk w hw
  rw [hu, Option.some_inj] at hu'
  rw [← hu', hjoined] at hjoined'
  cases hjoined'

/-- A user who is not joined can be replaced, unless by one who is joined with a walk. -/
theorem replace (h : Noted service users walks) (hu : users[index]? = some u)
    (hjoined : u.isJoined = false) (hv : v.isJoined = true → v.action.fits = false) :
    Noted service (users.set index v) walks where
  distinct := h.distinct
  walk w hw := by
    rw [List.getElem?_set_ne (h.fresh hu hjoined hw)]
    exact h.walk w hw
  complete i u' hu' hjoined' hfits := by
    by_cases hi : index = i
    · subst hi
      rw [List.getElem?_set_self (List.getElem?_eq_some_iff.mp hu).1, Option.some_inj] at hu'
      subst hu'
      rw [hv hjoined'] at hfits
      cases hfits
    · rw [List.getElem?_set_ne hi] at hu'
      exact h.complete i u' hu' hjoined' hfits

/-- A user who is not joined can be joined with the walk in turn. -/
theorem add (h : Noted service users walks) (hu : users[index]? = some u)
    (hjoined : u.isJoined = false) (hfits : u.action.fits = true) (times : Nat → Float) :
    Noted service (users.set index { u with task := .joined })
      (walks ++ [u.action.walkInTurn index (service index) times]) where
  distinct := by
    rw [List.map_append, List.nodup_append]
    refine ⟨h.distinct, by simp, ?_⟩
    rintro i hi j hj rfl
    obtain ⟨w, hw, rfl⟩ := List.mem_map.mp hi
    exact h.fresh hu hjoined hw (List.mem_singleton.mp hj).symm
  walk w hw := by
    rcases List.mem_append.mp hw with hw | hw
    · rw [List.getElem?_set_ne (h.fresh hu hjoined hw)]
      exact h.walk w hw
    · obtain rfl := List.mem_singleton.mp hw
      exact ⟨_, times, List.getElem?_set_self (List.getElem?_eq_some_iff.mp hu).1, rfl, hfits, rfl⟩
  complete i u' hu' hjoined' hfits' := by
    by_cases hi : index = i
    · exact ⟨_, List.mem_append_right _ (List.mem_singleton_self _), hi⟩
    · rw [List.getElem?_set_ne hi] at hu'
      obtain ⟨w, hw, hindex⟩ := h.complete i u' hu' hjoined' hfits'
      exact ⟨w, List.mem_append_left _ hw, hindex⟩

/-- The times at which the walks noted were measured, by user. -/
theorem exists_times (h : Noted service users walks) :
    ∃ times : Nat → Nat → Float, ∀ w ∈ walks, ∃ u, users[w.userIndex]? = some u ∧
      u.action.fits = true ∧
      w = u.action.walkInTurn w.userIndex (service w.userIndex) (times w.userIndex) := by
  have heach : ∀ i, ∃ times : Nat → Float, ∀ w ∈ walks, w.userIndex = i →
      ∃ u, users[i]? = some u ∧ u.action.fits = true ∧
        w = u.action.walkInTurn i (service i) times := by
    intro i
    by_cases hi : ∃ w ∈ walks, w.userIndex = i
    · obtain ⟨w, hw, rfl⟩ := hi
      -- no other walk of this user is noted, so these times serve for all of them
      obtain ⟨u, times, hu, -, hfits, hwalk⟩ := h.walk w hw
      refine ⟨times, fun w' hw' hindex => ?_⟩
      obtain rfl := List.inj_on_of_nodup_map h.distinct hw' hw hindex
      exact ⟨u, hu, hfits, hwalk⟩
    · exact ⟨fun _ => 0.0, fun w hw hindex => absurd ⟨w, hw, hindex⟩ hi⟩
  choose times htimes using heach
  exact ⟨times, fun w hw => htimes _ w hw rfl⟩

/-- When every user is joined, those on record are the users in turn, the lost ones included. -/
theorem fill_perm (h : Noted service users walks) (hroster : users.map (·.action) = m.roster)
    (hall : users.all User.isJoined = true) :
    ∃ times, (fill (users.map (·.action.name)) walks).Perm (m.recordsInTurn service times) := by
  obtain ⟨times, htimes⟩ := h.exists_times
  have haction : ∀ {i : Nat} {u : User}, users[i]? = some u → m.roster[i]? = some u.action := by
    intro i u hu
    rw [← hroster, List.getElem?_map, hu, Option.map_some]
  -- both lists name every user at most once, so it is enough that they have the same members
  refine ⟨times, (List.perm_ext_iff_of_nodup ?_ ?_).mpr fun w => ?_⟩
  · exact (fill_distinct _ h.distinct).of_map
  · refine List.Nodup.of_map (·.userIndex) ?_
    rw [Mix.map_userIndex_recordsInTurn]
    exact List.nodup_range
  · rw [mem_fill, Mix.mem_recordsInTurn]
    constructor
    · rintro (hw | ⟨i, name, hname, hfresh, rfl⟩)
      · obtain ⟨u, hu, hfits, hwalk⟩ := htimes w hw
        refine ⟨w.userIndex, u.action, haction hu, ?_⟩
        rw [UserAction.recordInTurn, if_pos hfits, ← hwalk]
      · obtain ⟨u, hu, rfl⟩ := Option.map_eq_some_iff.mp (List.getElem?_map ▸ hname)
        refine ⟨i, u.action, haction hu, ?_⟩
        have hjoined := List.all_eq_true.mp hall u (List.mem_of_getElem? hu)
        rw [UserAction.recordInTurn, if_neg]
        intro hfits
        obtain ⟨w, hw, hindex⟩ := h.complete i u hu hjoined hfits
        exact hfresh w hw hindex
    · rintro ⟨i, a, ha, rfl⟩
      rw [← hroster, List.getElem?_map] at ha
      obtain ⟨u, hu, rfl⟩ := Option.map_eq_some_iff.mp ha
      have hjoined := List.all_eq_true.mp hall u (List.mem_of_getElem? hu)
      rw [UserAction.recordInTurn]
      split_ifs with hfits
      · obtain ⟨w, hw, rfl⟩ := h.complete i u hu hjoined hfits
        obtain ⟨u', hu', -, hwalk⟩ := htimes w hw
        rw [hu, Option.some_inj] at hu'
        rw [hu', ← hwalk]
        exact .inl hw
      · refine .inr ⟨i, u.action.name, by rw [List.getElem?_map, hu, Option.map_some], ?_, rfl⟩
        rintro w hw rfl
        obtain ⟨u', hu', hfits', -⟩ := htimes w hw
        rw [hu, Option.some_inj] at hu'
        rw [← hu'] at hfits'
        exact hfits hfits'

end Noted

/-! ## What every run keeps -/

/-- What a run can have come to: nothing yet, the fault of a cancelled run, or the report on users
    all of whom are joined. -/
inductive Outcome (m : Mix) (r : LoadRun) : Prop
  | pending (hrun : r.result = none)
  | cancelled (hcancel : r.cancelled = true)
    (hresult : r.result = some (.error (.cancelled m.name)))
  | reported (totalTimeMs : Float) (hall : r.users.all User.isJoined = true)
    (hresult : r.result = some (.ok (r.report m totalTimeMs)))

/-- The users perform the actions of the roster, each walks in turn, the walks noted are those of
    the users joined, and the result is drawn up from them. -/
structure Sound (m : Mix) (service : Nat → Nat → Nat → CallEnd) (r : LoadRun) : Prop where
  actions : r.users.map (·.action) = m.roster
  inTurn : ∀ (i : Nat) (u : User), r.users[i]? = some u →
    u.task.InTurn u.action (service i) i r.cancelled
  noted : Noted service r.users r.walks
  outcome : r.Outcome m

theorem sound_start (m : Mix) (service : Nat → Nat → Nat → CallEnd) (cancelled : Bool) :
    (start m cancelled).Sound m service where
  actions := by simp [start, Function.comp_def]
  inTurn i u hu := by
    obtain ⟨a, -, rfl⟩ := Option.map_eq_some_iff.mp (List.getElem?_map ▸ hu)
    exact .between (UserAction.visited_nil _ _)
  noted := by
    refine ⟨by simp [start], by simp [start], fun i u hu hjoined => ?_⟩
    obtain ⟨a, -, rfl⟩ := Option.map_eq_some_iff.mp (List.getElem?_map ▸ hu)
    cases hjoined
  outcome := .pending rfl

theorem map_action_set {users : List User} {index : Nat} {u v : User}
    (hu : users[index]? = some u) (haction : v.action = u.action) :
    (users.set index v).map (·.action) = users.map (·.action) := by
  obtain ⟨hlt, rfl⟩ := List.getElem?_eq_some_iff.mp hu
  have hlen : index < (users.map (·.action)).length := by simpa using hlt
  have hat : (users.map (·.action))[index] = users[index].action := by simp
  rw [List.map_set, haction, ← hat, List.set_getElem_self]

/-- What holds of every user still does when one is replaced of whom it holds. -/
theorem forall_users_set {P : Nat → User → Prop} {users : List User} {index : Nat} {v : User}
    (h : ∀ (i : Nat) (u : User), users[i]? = some u → P i u) (hv : P index v) :
    ∀ (i : Nat) (u : User), (users.set index v)[i]? = some u → P i u := by
  intro i u hu
  rw [List.getElem?_set] at hu
  split_ifs at hu with hi hlt
  · rw [Option.some_inj] at hu
    rwa [← hi, ← hu]
  · exact h i u hu

theorem Sound.stop (hr : r.Sound m service) (hcancel : r.cancelled = true) :
    (r.stop m).Sound m service where
  actions := hr.actions
  inTurn := hr.inTurn
  noted := hr.noted
  outcome := .cancelled hcancel rfl

/-- Whatever move a run makes, its users walk in turn and the joined ones are on record. -/
theorem Sound.step (hr : r.Sound m service) (h : step? m service r move = some r') :
    r'.Sound m service := by
  cases step_of_step? h with
  | cancel hlive =>
    refine ⟨hr.actions, fun i u hu => (hr.inTurn i u hu).cancel, hr.noted, ?_⟩
    cases hr.outcome with
    | pending hrun => exact .pending hrun
    | cancelled hcancel => rw [hlive] at hcancel; cases hcancel
    | reported totalTimeMs hall hresult => exact .reported totalTimeMs hall hresult
  | user hrun hu hmove =>
    have hstep := User.step_of_step? hmove
    refine ⟨?_, ?_, ?_, .pending hrun⟩
    · exact (map_action_set hu hstep.action_eq).trans hr.actions
    · exact forall_users_set hr.inTurn (User.inTurn_step (hr.inTurn _ _ hu) hmove)
    · refine hr.noted.replace hu hstep.not_joined.1 fun hjoined => ?_
      rw [hstep.not_joined.2] at hjoined
      cases hjoined
  | @join index u walk hrun hu htask hlive =>
    have hended := hr.inTurn index u hu
    rw [htask] at hended
    cases hended with
    | ended times hfits =>
      refine ⟨?_, forall_users_set hr.inTurn .joined, ?_, .pending hrun⟩
      · exact (map_action_set (v := { u with task := .joined }) hu rfl).trans hr.actions
      · exact hr.noted.add hu (by rw [User.isJoined, htask]) hfits times
  | @joinLost index u hrun hu htask hlive =>
    have hcrashed := hr.inTurn index u hu
    rw [htask] at hcrashed
    cases hcrashed with
    | crashed hfits =>
      refine ⟨?_, forall_users_set hr.inTurn .joined, ?_, .pending hrun⟩
      · exact (map_action_set (v := { u with task := .joined }) hu rfl).trans hr.actions
      · exact hr.noted.replace hu (by rw [User.isJoined, htask]) fun _ => hfits
  | @joinStopped index u hrun hu htask =>
    have hstopped := hr.inTurn index u hu
    rw [htask] at hstopped
    cases hstopped with
    | stopped hcancel => exact hr.stop hcancel
  | conclude totalTimeMs hrun hlive hall =>
    exact ⟨hr.actions, hr.inTurn, hr.noted, .reported totalTimeMs hall rfl⟩
  | giveUp hrun hcancel => exact hr.stop hcancel

theorem Sound.play {moves : List LoadMove} (hr : r.Sound m service)
    (h : r.play? m service moves = some r') : r'.Sound m service :=
  foldlM_keeps (fun _ _ _ hs hstep => Sound.step hs hstep) hr h

/-- A result is the fault of a cancelled run, or the report on users all of whom are joined. -/
theorem Sound.of_result (hr : r.Sound m service) {result : Except Fault LoadReport}
    (h : r.result = some result) :
    (r.cancelled = true ∧ result = .error (.cancelled m.name)) ∨
      ∃ totalTimeMs, r.users.all User.isJoined = true ∧
        result = .ok (r.report m totalTimeMs) := by
  cases hr.outcome with
  | pending hrun => rw [hrun] at h; cases h
  | cancelled hcancel hfault => exact .inl ⟨hcancel, Option.some_inj.mp (h.symm.trans hfault)⟩
  | reported totalTimeMs hall hreport =>
    exact .inr ⟨totalTimeMs, hall, Option.some_inj.mp (h.symm.trans hreport)⟩

/-! ## Every run comes to its result -/

/-- A run without a result can make a move, and need not be cancelled for it. -/
theorem exists_step (hr : r.Sound m service) (hrun : r.result = none) :
    ∃ move r', move ≠ .cancel ∧ step? m service r move = some r' := by
  cases hcancel : r.cancelled with
  | true => exact ⟨.giveUp, _, by simp, (Step.giveUp hrun hcancel).step?⟩
  | false =>
    cases hall : r.users.all User.isJoined with
    | true => exact ⟨.conclude 0.0, _, by simp, (Step.conclude 0.0 hrun hcancel hall).step?⟩
    | false =>
      obtain ⟨u, hmem, hjoined⟩ := List.all_eq_false.mp hall
      obtain ⟨i, hi, rfl⟩ := List.getElem_of_mem hmem
      have hu := List.getElem?_eq_getElem hi
      have hwalk := hr.inTurn i _ hu
      rw [hcancel] at hwalk
      rcases User.exists_step hwalk with ⟨move, u', events, hmove⟩ | ⟨walk, htask⟩ | htask | hyes
      · rw [← hcancel] at hmove
        exact ⟨.user i move, _, by simp, (Step.user hrun hu hmove).step?⟩
      · exact ⟨.join i, _, by simp, (Step.join hrun hu htask hcancel).step?⟩
      · exact ⟨.join i, _, by simp, (Step.joinLost hrun hu htask hcancel).step?⟩
      · exact absurd hyes hjoined

/-- The most moves that a run has still to make, apart from being cancelled: those of its users, and
    the one by which it ends. -/
def ahead (r : LoadRun) : Nat :=
  match r.result with
  | some _ => 0
  | none => (r.users.map User.remaining).sum + 1

/-- The most moves that a run has still to make. -/
def remaining (r : LoadRun) : Nat := r.ahead + if r.cancelled then 0 else 1

theorem remaining_noted {index : Nat} {u : User} (hrun : r.result = none)
    (hu : r.users[index]? = some u) (hwork : u.remaining = 1) (walks : List UserWalk)
    (events : List LoadEvent) : (r.noted m index u walks events).remaining < r.remaining := by
  have hsum := sum_map_set hu User.remaining { u with task := .joined }
  have hzero : User.remaining { u with task := .joined } = 0 := rfl
  simp only [remaining, ahead, LoadRun.noted, hrun]
  omega

theorem remaining_stop (hrun : r.result = none) : (r.stop m).remaining < r.remaining := by
  have hahead : 0 < r.ahead := by simp [ahead, hrun]
  exact Nat.add_lt_add_right hahead _

theorem remaining_step (h : step? m service r move = some r') : r'.remaining < r.remaining := by
  cases step_of_step? h with
  | cancel hlive => simp [remaining, ahead, hlive]
  | @user index _ u u' _ hrun hu hmove =>
    have hsum := sum_map_set hu User.remaining u'
    have := User.remaining_step hmove
    simp only [remaining, ahead, hrun]
    omega
  | join hrun hu htask hlive => exact remaining_noted hrun hu (by rw [User.remaining, htask]) _ _
  | joinLost hrun hu htask hlive =>
    exact remaining_noted hrun hu (by rw [User.remaining, htask]) _ _
  | joinStopped hrun hu htask => exact remaining_stop hrun
  | conclude totalTimeMs hrun hlive hall =>
    simp only [remaining, ahead, hrun]
    omega
  | giveUp hrun hcancel => exact remaining_stop hrun

/-- The most moves that a run of a mix takes. -/
def mixMoves (m : Mix) : Nat := (m.roster.map fun a => User.pageMoves a.pages + 2).sum + 2

theorem remaining_start (m : Mix) (cancelled : Bool) :
    (start m cancelled).remaining ≤ mixMoves m := by
  cases cancelled <;> simp [remaining, ahead, start, mixMoves, User.remaining, Function.comp_def]

/-- A run has only so many moves. -/
theorem length_le_of_play {moves : List LoadMove} {cancelled : Bool}
    (h : (start m cancelled).play? m service moves = some r) : moves.length ≤ mixMoves m := by
  have hle := foldlM_length_le (fun _ _ _ _ _ => trivial) (fun _ _ _ _ => remaining_step) trivial h
  have := remaining_start m cancelled
  omega

/-- A run can go on to its result, and need not be cancelled for it. -/
theorem exists_play_to_result (hr : r.Sound m service) :
    ∃ more r', .cancel ∉ more ∧ r.play? m service more = some r' ∧ r'.result.isSome = true := by
  have hgoOn : ∀ r : LoadRun, r.Sound m service → ¬ r.result.isSome = true →
      ∃ move r', move ≠ .cancel ∧ step? m service r move = some r' :=
    fun r hr hrun => exists_step hr (Option.not_isSome_iff_eq_none.mp hrun)
  obtain ⟨more, r', hmore, hplay, hresult⟩ :=
    foldlM_complete (fun _ _ _ hs hstep => Sound.step hs hstep) (fun _ _ _ _ => remaining_step)
      hgoOn hr
  exact ⟨more, r', fun hmem => hmore _ hmem rfl, hplay, hresult⟩

theorem cancelled_of_play {moves : List LoadMove} (hlive : r.cancelled = false)
    (hmoves : .cancel ∉ moves) (h : r.play? m service moves = some r') : r'.cancelled = false := by
  have hkeep : ∀ r move r', move ≠ LoadMove.cancel → r.cancelled = false →
      step? m service r move = some r' → r'.cancelled = false := by
    intro r move r' hmove hlive hstep
    cases step_of_step? hstep with
    | cancel => exact absurd rfl hmove
    | _ => exact hlive
  exact foldlM_keeps_of_allowed hkeep (fun move hmove heq => hmoves (heq ▸ hmove)) hlive h

end LoadRun

/-! ## Whole runs -/

/-- A report is that of users who walk one after the other. -/
structure Mix.ReportInTurn (m : Mix) (service : Nat → Nat → Nat → CallEnd) (report : LoadReport) :
    Prop where
  /-- It is drawn up from the records in turn, user after user. -/
  report_eq : ∃ times totalTimeMs,
    report = .ofWalks m (m.recordsInTurn service times) totalTimeMs
  /-- Every user of the roster is on record once, at the index of the user. -/
  length : report.walks.length = m.roster.length
  /-- What is on record of a user depends on the calls of that user alone, and of a visit on the
      calls of that visit. -/
  onRecord : ∀ (i : Nat) (a : UserAction), m.roster[i]? = some a →
    ∃ w, report.walks[i]? = some w ∧ a.OnRecord i (service i) w
  /-- The users who failed are those with a page that cannot be held. -/
  failedUsers : report.failedUsers = m.roster.countP fun a => !a.fits
  /-- If every page can be held, no user fails, whatever the calls do. -/
  allHeld : (∀ a ∈ m.roster, a.fits = true) → report.failedUsers = 0 ∧
    ∃ times totalTimeMs, report = .ofWalks m (m.walksInTurn service times) totalTimeMs

theorem Mix.reportInTurn_ofWalks (m : Mix) (service : Nat → Nat → Nat → CallEnd)
    (times : Nat → Nat → Float) (totalTimeMs : Float) :
    m.ReportInTurn service (.ofWalks m (m.recordsInTurn service times) totalTimeMs) := by
  have horder := LoadReport.inOrder_of_ascending (m.recordsInTurn_ascending service times)
  have hwalks : (LoadReport.ofWalks m (m.recordsInTurn service times) totalTimeMs).walks =
      m.recordsInTurn service times := horder
  have hfailed : (LoadReport.ofWalks m (m.recordsInTurn service times) totalTimeMs).failedUsers =
      m.roster.countP fun a => !a.fits := by
    rw [← m.countP_failed_recordsInTurn service times]
    exact congrArg (List.countP (·.failed)) horder
  refine ⟨⟨times, totalTimeMs, rfl⟩, ?_, ?_, hfailed, ?_⟩
  · rw [hwalks, Mix.length_recordsInTurn]
  · intro i a ha
    rw [hwalks]
    exact ⟨_, Mix.getElem?_recordsInTurn service times ha, a.recordInTurn_onRecord i _ _⟩
  · intro hfits
    refine ⟨?_, times, totalTimeMs, by rw [Mix.recordsInTurn_of_fits service times hfits]⟩
    rw [hfailed, List.countP_eq_zero]
    intro a ha
    simp [hfits a ha]

theorem LoadRun.Sound.reportInTurn {m : Mix} {service : Nat → Nat → Nat → CallEnd} {r : LoadRun}
    (hr : r.Sound m service) (hall : r.users.all User.isJoined = true) (totalTimeMs : Float) :
    m.ReportInTurn service (r.report m totalTimeMs) := by
  obtain ⟨times, hperm⟩ := hr.noted.fill_perm hr.actions hall
  have hdistinct := LoadRun.fill_distinct (r.users.map (·.action.name)) hr.noted.distinct
  rw [LoadRun.report, LoadReport.ofWalks_perm hperm hdistinct]
  exact m.reportInTurn_ofWalks service times totalTimeMs

namespace Scheduler

/-- A run that has come somewhere can go on to a result, and need not be cancelled for it. -/
theorem exists_runMix {m : Mix} (hready : m.ready = .ok ()) {sched : Scheduler} (place : Nat)
    {service : Nat → Nat → Nat → CallEnd} {before : List LoadMove} {r : LoadRun}
    (h : (LoadRun.start m sched.cancelled).play? m service before = some r) :
    ∃ after o, LoadMove.cancel ∉ after ∧
      sched.runMix m place ⟨service, fun _ => before ++ after⟩ = some o := by
  obtain ⟨after, r', hafter, hplay, hresult⟩ :=
    LoadRun.exists_play_to_result ((LoadRun.sound_start m service sched.cancelled).play h)
  obtain ⟨result, hresult⟩ := Option.isSome_iff_exists.mp hresult
  exact ⟨after, ⟨_, r'.log.map (place, ·), result⟩, hafter, (runMix_of_ready hready).mpr
    ⟨r', (foldlM_append_of_some h after).trans hplay, hresult, rfl, rfl⟩⟩

/-- An uncancelled run with a result is one whose users are all joined. -/
theorem exists_run_of_uncancelled {m : Mix} (hready : m.ready = .ok ()) {sched : Scheduler}
    (hlive : sched.cancelled = false) {place : Nat} {course : Course}
    (hmoves : LoadMove.cancel ∉ course.moves (.start m false)) {o : Operation LoadReport}
    (hrun : sched.runMix m place course = some o) :
    ∃ r totalTimeMs,
      (LoadRun.start m false).play? m course.service (course.moves (.start m false)) = some r ∧
      r.users.all User.isJoined = true ∧ o.result = .ok (r.report m totalTimeMs) ∧
      o.log = r.log.map (place, ·) := by
  obtain ⟨r, hplay, hresult, hlog, -⟩ := (runMix_of_ready hready).mp hrun
  rw [hlive] at hplay
  have hr := (LoadRun.sound_start m course.service false).play hplay
  rcases hr.of_result hresult with ⟨hcancel, -⟩ | ⟨totalTimeMs, hall, hreport⟩
  · rw [LoadRun.cancelled_of_play rfl hmoves hplay] at hcancel
    cases hcancel
  · exact ⟨r, totalTimeMs, hplay, hall, hreport, hlog⟩

theorem report_of_runMix {m : Mix} (hready : m.ready = .ok ()) {sched : Scheduler}
    (hlive : sched.cancelled = false) {place : Nat} {course : Course}
    (hmoves : LoadMove.cancel ∉ course.moves (.start m false)) {o : Operation LoadReport}
    (hrun : sched.runMix m place course = some o) :
    ∃ report, o.result = .ok report ∧ m.ReportInTurn course.service report := by
  obtain ⟨r, totalTimeMs, hplay, hall, hresult, -⟩ :=
    exists_run_of_uncancelled hready hlive hmoves hrun
  have hr := (LoadRun.sound_start m course.service false).play hplay
  exact ⟨_, hresult, hr.reportInTurn hall totalTimeMs⟩

/-- An uncancelled run of a mix whose roster can be held agrees with its users walking one after the
    other. However it goes, it can go on to a result, it does so within a bounded number of moves,
    and the result is the report of the users in turn. -/
theorem runMix_runsInTurn {m : Mix} (hvalid : m.validate = .ok ())
    (hroster : m.roster.length < Mix.rosterLimit) {sched : Scheduler}
    (hlive : sched.cancelled = false) (place : Nat) (service : Nat → Nat → Nat → CallEnd) :
    (∀ moves o, LoadMove.cancel ∉ moves (.start m false) →
      sched.runMix m place ⟨service, moves⟩ = some o →
      ∃ report, o.result = .ok report ∧ m.ReportInTurn service report) ∧
    ∀ moves r, LoadMove.cancel ∉ moves →
      (LoadRun.start m false).play? m service moves = some r →
      moves.length ≤ LoadRun.mixMoves m ∧
      ∃ more o, LoadMove.cancel ∉ more ∧
        sched.runMix m place ⟨service, fun _ => moves ++ more⟩ = some o := by
  have hready := Mix.ready_eq_ok_iff.mpr ⟨hvalid, hroster⟩
  constructor
  · intro moves o hmoves hrun
    exact report_of_runMix hready hlive hmoves hrun
  · intro moves r hmoves hplay
    rw [← hlive] at hplay
    exact ⟨LoadRun.length_le_of_play hplay, exists_runMix hready place hplay⟩

/-- A request that is made as often on a page as a weight says. -/
def pingAt (weight : Float) : Weighted RequestKind where
  item := ⟨⟨"ping", "Ping", []⟩, none, none, 1, .low⟩
  weight := weight

/-- Two users, one of whom goes to a page that cannot be held. -/
def hugeAndSmall : Mix where
  name := "mixed"
  description := ""
  users := 2
  actions := [⟨⟨"huge", "", [⟨"all", "", [pingAt 1e18]⟩]⟩, 0.5⟩,
    ⟨⟨"small", "", [⟨"one", "", [pingAt 0.1]⟩]⟩, 0.5⟩]

/-- A run of the two users in which the second one is joined first and the only call crashes. -/
def secondFirst : Course where
  service _ _ _ := .crashed
  moves _ :=
    [.user 0 .goOn, .user 1 .goOn, .user 1 (.call (.launch 0)), .user 1 (.call (.finish 0)),
      .user 1 (.call (.join 0)), .user 1 (.leave 1.0), .user 1 .goOn, .join 1, .join 0,
      .conclude 2.0]

theorem runMix_hugeAndSmall : hugeAndSmall.validate = .ok () ∧
    hugeAndSmall.roster.length < Mix.rosterLimit ∧
    ∃ o report, LoadMove.cancel ∉ secondFirst.moves (.start hugeAndSmall false) ∧
      (new .standard).runMix hugeAndSmall 0 secondFirst = some o ∧ o.result = .ok report ∧
      hugeAndSmall.ReportInTurn secondFirst.service report := by
  obtain ⟨o, hrun⟩ : ∃ o, (new .standard).runMix hugeAndSmall 0 secondFirst = some o := ⟨_, rfl⟩
  have hmoves : LoadMove.cancel ∉ secondFirst.moves (.start hugeAndSmall false) := by
    simp [secondFirst]
  have hlive : (new .standard).cancelled = false := rfl
  have hroster : hugeAndSmall.roster.length < Mix.rosterLimit := by decide
  obtain ⟨report, hresult, hreport⟩ :=
    (runMix_runsInTurn (m := hugeAndSmall) rfl hroster hlive 0 secondFirst.service).1
      secondFirst.moves o hmoves hrun
  exact ⟨rfl, hroster, o, report, hmoves, hrun, hresult, hreport⟩

/-- So many users that their roster cannot be held: each of two users stands for `10 ^ 18`. -/
def crowd : Mix where
  name := "crowd"
  description := ""
  users := 2
  actions := [⟨⟨"ask", "", [⟨"one", "", [pingAt 0.1]⟩]⟩, 1e18⟩]

/-- A run in which no move is made. -/
def noMoves : Course := ⟨fun _ _ _ => .crashed, fun _ => []⟩

/-- However it is run, and cancelled or not, it breaks down and nothing is seen of it. -/
theorem runMix_crowd (sched : Scheduler) (place : Nat) (course : Course) :
    sched.runMix crowd place course = some (sched.refuse (.broken .capacity)) :=
  runMix_of_fault (by decide) course

/-- In a run that is not cancelled a user can fail, and a run whose roster cannot be held has no
    report. -/
theorem not_runMix_noneFails :
    (¬ ∀ (m : Mix) (sched : Scheduler) (place : Nat) (course : Course) (o : Operation LoadReport),
      m.validate = .ok () → m.roster.length < Mix.rosterLimit → sched.cancelled = false →
      LoadMove.cancel ∉ course.moves (.start m false) → sched.runMix m place course = some o →
      ∃ report, o.result = .ok report ∧ report.failedUsers = 0 ∧
        ∃ times totalTimeMs,
          report = .ofWalks m (m.walksInTurn course.service times) totalTimeMs) ∧
    ¬ ∀ (m : Mix) (sched : Scheduler) (place : Nat) (course : Course) (o : Operation LoadReport),
      m.validate = .ok () → sched.cancelled = false →
      LoadMove.cancel ∉ course.moves (.start m false) → sched.runMix m place course = some o →
      ∃ report, o.result = .ok report := by
  constructor
  · intro hclaim
    obtain ⟨o, hrun⟩ : ∃ o, (new .standard).runMix hugeAndSmall 0 secondFirst = some o := ⟨_, rfl⟩
    have hmoves : LoadMove.cancel ∉ secondFirst.moves (.start hugeAndSmall false) := by
      simp [secondFirst]
    obtain ⟨report, hresult, hnone, -⟩ := hclaim _ _ 0 _ o rfl (by decide) rfl hmoves hrun
    obtain ⟨report', hresult', hreport⟩ := report_of_runMix (by decide) rfl hmoves hrun
    obtain rfl : report = report' := by
      rw [hresult] at hresult'
      cases hresult'
      rfl
    have hfailed : (hugeAndSmall.roster.countP fun a => !a.fits) = 1 := rfl
    rw [hreport.failedUsers, hfailed] at hnone
    cases hnone
  · intro hclaim
    obtain ⟨report, hresult⟩ := hclaim crowd (new .standard) 0 noMoves _ rfl rfl List.not_mem_nil
      (runMix_crowd _ _ _)
    cases hresult

end Scheduler

end LoadBench
