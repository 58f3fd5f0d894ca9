import Mathlib.Tactic
import LoadBench.Proofs.Run.Barrier

/-!
# What a report says of a run

The users of a run are joined in any order, and their calls come to anything. The order does not
show in the report, and what the report counts agrees with the plan of the mix: the users are those
of the roster, each makes the calls of the walk, and the requests of the report are those calls
without the ones of visits that are lost.

Results:
* `LoadRun.report_eq_of_perm`, `report_ignoresOrder`: walks noted in another order make the same
  report.
* `LoadRun.Traced.callsMade_perm`: a run whose users are joined has made the calls of the mix, each
  once.
* `UserAction.OnRecord.length_results_add`, `Mix.ReportInTurn.totalRequests_add`: what is on record
  and what is lost come to the calls of the plan.
* `Scheduler.runMix_accounted`: the report of an uncancelled run agrees with the plan, if its roster
  can be held.
-/

namespace LoadBench

/-! ## The order of the users -/

theorem LoadReport.inOrder_ascending {walks : List UserWalk}
    (hdistinct : (walks.map (·.userIndex)).Nodup) :
    (inOrder walks).Pairwise fun a b => a.userIndex < b.userIndex := by
  have hperm := (List.mergeSort_perm walks fun a b => decide (a.userIndex ≤ b.userIndex)).map
    (·.userIndex)
  have hne := List.pairwise_map.mp (hperm.nodup_iff.mpr hdistinct)
  exact ((inOrder_pairwise walks).and hne).imp fun h => lt_of_le_of_ne h.1 h.2

namespace LoadRun

variable {m : Mix} {service service' : Nat → Nat → Nat → CallEnd} {r r' : LoadRun}

theorem fill_perm_of_perm (roster : List String) {walks others : List UserWalk}
    (h : walks.Perm others) : (fill roster walks).Perm (fill roster others) := by
  simp only [fill, h.any_eq]
  exact h.append_right _

/-- Runs that have taken note of the same walks draw up the same report. -/
theorem report_eq_of_perm (hr : r.Sound m service) (hr' : r'.Sound m service')
    (h : r.walks.Perm r'.walks) (totalTimeMs : Float) :
    r.report m totalTimeMs = r'.report m totalTimeMs := by
  have hnames : ∀ {r : LoadRun} {service}, r.Sound m service →
      r.users.map (·.action.name) = m.roster.map (·.name) := by
    intro r service hr
    rw [← hr.actions, List.map_map]
    rfl
  rw [report, report, hnames hr, hnames hr']
  exact LoadReport.ofWalks_perm (fill_perm_of_perm _ h) (fill_distinct _ hr.noted.distinct) m _

end LoadRun

/-- The order in which users come never shows in a report: walks of distinct users make the same
    report in whatever order they are given, with the users in the order of their indices, and so do
    runs that have joined their users in different orders. -/
theorem report_ignoresOrder (m : Mix) (totalTimeMs : Float) :
    (∀ walks others : List UserWalk, (walks.map (·.userIndex)).Nodup → walks.Perm others →
      LoadReport.ofWalks m walks totalTimeMs = .ofWalks m others totalTimeMs ∧
      (LoadReport.ofWalks m walks totalTimeMs).walks.Perm others ∧
      (LoadReport.ofWalks m walks totalTimeMs).walks.Pairwise
        fun a b => a.userIndex < b.userIndex) ∧
    ∀ service service' cancelled cancelled' moves moves' r r',
      (LoadRun.start m cancelled).play? m service moves = some r →
      (LoadRun.start m cancelled').play? m service' moves' = some r' →
      r.walks.Perm r'.walks → r.report m totalTimeMs = r'.report m totalTimeMs := by
  constructor
  · intro walks others hdistinct hperm
    exact ⟨LoadReport.ofWalks_perm hperm hdistinct m totalTimeMs,
      (List.mergeSort_perm _ _).trans hperm, LoadReport.inOrder_ascending hdistinct⟩
  · intro service service' cancelled cancelled' moves moves' r r' hplay hplay' hperm
    exact LoadRun.report_eq_of_perm ((LoadRun.sound_start m service cancelled).play hplay)
      ((LoadRun.sound_start m service' cancelled').play hplay') hperm totalTimeMs

/-- Two users who each make one call. -/
def twoUsers : Mix where
  name := "two"
  description := ""
  users := 2
  actions := [⟨⟨"small", "", [⟨"one", "", [Scheduler.pingAt 0.1]⟩]⟩, 1.0⟩]

/-- A service that crashes in the calls of the first user. -/
def failsFirst (user _page _position : Nat) : CallEnd :=
  if user = 0 then .crashed
  else .returned (.ofCall (Scheduler.pingAt 0.1).item.call 1.0 .epoch (.success .null))

/-- The moves of a user who makes one call. -/
def oneCall (user : Nat) : List LoadMove :=
  [.user user .goOn, .user user (.call (.launch 0)), .user user (.call (.finish 0)),
    .user user (.call (.join 0)), .user user (.leave 1.0), .user user .goOn]

theorem report_ignoresOrder_twoUsers : ∃ r r',
    (LoadRun.start twoUsers false).play? twoUsers failsFirst
      (oneCall 0 ++ oneCall 1 ++ [.join 1, .join 0]) = some r ∧
    (LoadRun.start twoUsers false).play? twoUsers failsFirst
      (oneCall 0 ++ oneCall 1 ++ [.join 0, .join 1]) = some r' ∧
    r.walks.map (·.userIndex) = [1, 0] ∧ r'.walks.map (·.userIndex) = [0, 1] ∧
    LoadReport.ofWalks twoUsers r.walks 2.0 = .ofWalks twoUsers r'.walks 2.0 ∧
    r.report twoUsers 2.0 = r'.report twoUsers 2.0 := by
  obtain ⟨r, r', hplay, hplay', hperm, horder, horder'⟩ : ∃ r r',
      (LoadRun.start twoUsers false).play? twoUsers failsFirst
        (oneCall 0 ++ oneCall 1 ++ [.join 1, .join 0]) = some r ∧
      (LoadRun.start twoUsers false).play? twoUsers failsFirst
        (oneCall 0 ++ oneCall 1 ++ [.join 0, .join 1]) = some r' ∧
      r.walks.Perm r'.walks ∧ r.walks.map (·.userIndex) = [1, 0] ∧
      r'.walks.map (·.userIndex) = [0, 1] := ⟨_, _, rfl, rfl, .swap _ _ _, rfl, rfl⟩
  obtain ⟨hwalks, hruns⟩ := report_ignoresOrder twoUsers 2.0
  have hdistinct : (r.walks.map (·.userIndex)).Nodup := by
    rw [horder]
    decide
  exact ⟨r, r', hplay, hplay', horder, horder', (hwalks _ _ hdistinct hperm).1,
    hruns _ _ _ _ _ _ r r' hplay hplay' hperm⟩

/-! ## Calls -/

/-- The call that is made, by user, page and position. -/
def LoadEvent.called? : LoadEvent → Option (Nat × Nat × Nat)
  | .called user page i => some (user, page, i)
  | _ => none

/-- The calls that are made in what could be seen of a run. -/
def callsMade (log : List LoadEvent) : List (Nat × Nat × Nat) := log.filterMap LoadEvent.called?

theorem mem_callsMade {log : List LoadEvent} {user page i : Nat} :
    (user, page, i) ∈ callsMade log ↔ .called user page i ∈ log := by
  rw [callsMade, List.mem_filterMap]
  constructor
  · rintro ⟨e, he, hcall⟩
    cases e <;> cases hcall
    exact he
  · intro h
    exact ⟨_, h, rfl⟩

theorem count_callsMade (log : List LoadEvent) (user page i : Nat) :
    (callsMade log).count (user, page, i) =
      ((log.filterMap (LoadEvent.callOf? user)).filterMap CallEvent.started?).count (page, i) := by
  rw [callsMade, List.filterMap_filterMap, List.count_filterMap, List.count_filterMap]
  congr 1
  funext e
  cases e with
  | called u k j =>
    by_cases hu : u = user <;>
      simp [LoadEvent.called?, LoadEvent.callOf?, CallEvent.started?, hu]
  | ended u k j =>
    by_cases hu : u = user <;> simp [LoadEvent.called?, LoadEvent.callOf?, CallEvent.started?, hu]
  | _ => rfl

namespace LoadRun.Traced

variable {m : Mix} {service : Nat → Nat → Nat → CallEnd} {r : LoadRun}

/-- No call is made twice. -/
theorem nodup_callsMade (ht : r.Traced) : (callsMade r.log).Nodup := by
  rw [List.nodup_iff_count_le_one]
  rintro ⟨user, page, i⟩
  rw [count_callsMade]
  cases hu : r.users[user]? with
  | none => simp [ht.nobody user hu]
  | some u =>
    obtain ⟨left, b, -, htrace⟩ := ht.user user u hu
    exact List.nodup_iff_count_le_one.mp htrace.started_nodup (page, i)

/-- When every user is joined, the calls made are those of the mix in turn. -/
theorem callsMade_perm (ht : r.Traced) (hr : r.Sound m service)
    (hall : r.users.all User.isJoined = true) : (callsMade r.log).Perm m.callsInTurn := by
  rw [List.perm_ext_iff_of_nodup ht.nodup_callsMade m.nodup_callsInTurn]
  rintro ⟨user, page, i⟩
  rw [mem_callsMade]
  exact ⟨(ht.pagesApart hr).planned user page i, fun h => (ht.over_of_joined hr hall h).1⟩

end LoadRun.Traced

/-! ## Numbers of calls -/

/-- If a function of the entries of two lists adds up entry by entry, so do its sums. -/
theorem sum_add_sum_zipWith {α β : Type} {f : β → Nat} {g : α → β → Nat} {h : α → Nat}
    {xs : List α} {ys : List β} (hall : List.Forall₂ (fun x y => f y + g x y = h x) xs ys) :
    (ys.map f).sum + (List.zipWith g xs ys).sum = (xs.map h).sum := by
  induction hall with
  | nil => rfl
  | cons hhead _ ih =>
    simp only [List.map_cons, List.zipWith_cons_cons, List.sum_cons]
    omega

namespace UserAction

/-- The number of calls that a user makes: those of the walk, or of the pages in front of the first
    one that cannot be held. -/
def callCount (a : UserAction) : Nat :=
  if a.fits then a.requestCount else Counter.total (a.pagesReached.map Page.size)

/-- The number of calls of a user that have a place in a report; a user who is lost has none. -/
def recordCount (a : UserAction) : Nat := if a.fits then a.requestCount else 0

/-- The number of calls of the visits of a walk that are lost. -/
def callsLost (a : UserAction) (w : UserWalk) : Nat :=
  (List.zipWith (fun (p : Page) (v : PageVisit) => if v.failed then p.calls.length else 0)
    a.pages w.visits).sum

variable {a : UserAction}

theorem length_callsInTurn_eq (a : UserAction) : a.callsInTurn.length = a.callCount := by
  rw [length_callsInTurn, callCount]
  split_ifs with hfits
  · rw [pagesReached_of_fits hfits, requestCount, Counter.total_eq_sum]
  · rfl

end UserAction

/-- What is on record of a user, and the calls of the visits that are lost, come to the calls of the
    walk. -/
theorem UserAction.OnRecord.length_results_add {a : UserAction} {index : Nat}
    {service : Nat → Nat → CallEnd} {w : UserWalk} (hw : a.OnRecord index service w) :
    w.results.length + a.callsLost w = a.recordCount := by
  cases hfailed : w.failed with
  | true =>
    have hfits : a.fits = false := fits_eq_false_iff.mpr (hw.failed_iff.mp hfailed)
    simp [UserWalk.results, callsLost, recordCount, hw.lost hfailed, hfits]
  | false =>
    have hfits : a.fits = true := by
      rw [← Bool.not_eq_false, fits_eq_false_iff, ← hw.failed_iff, hfailed]
      simp
    rw [recordCount, if_pos hfits, requestCount, Counter.total_eq_sum, UserWalk.results,
      List.length_flatMap]
    apply sum_add_sum_zipWith
    rw [List.forall₂_iff_get]
    refine ⟨(hw.length hfailed).symm, fun k hk hk' => ?_⟩
    obtain ⟨v, hv, -, hrec⟩ := hw.visit hfailed k _ (List.getElem?_eq_getElem hk)
    rw [List.getElem?_eq_getElem hk', Option.some_inj] at hv
    simpa [hv, Page.length_calls] using hrec.length_add

namespace Mix

/-- The number of calls of the visits of some walks that are lost. -/
def callsLost (m : Mix) (walks : List UserWalk) : Nat :=
  (List.zipWith UserAction.callsLost m.roster walks).sum

variable {m : Mix}

/-- Every user makes all calls of the action, and each of them has a place in the report, apart from
    those of visits that are lost. -/
structure CountsAll (m : Mix) (report : LoadReport) (log : List LoadEvent) : Prop where
  callsOf : ∀ (user : Nat) (a : UserAction), m.roster[user]? = some a →
    (callsMade log).countP (·.1 == user) = a.requestCount
  length_calls : (callsMade log).length = (m.roster.map UserAction.requestCount).sum
  totalRequests : report.totalRequests + m.callsLost report.walks =
    (m.roster.map UserAction.requestCount).sum

/-- What a report says, and what could be seen of its run, agree with the plan of a mix. -/
structure Accounted (m : Mix) (service : Nat → Nat → Nat → CallEnd) (report : LoadReport)
    (log : List LoadEvent) : Prop where
  /-- There are as many users as the roster has, and as the weights call for. -/
  users : report.concurrentUsers = m.roster.length ∧ m.realizedUsers = m.roster.length
  /-- The calls made are those in turn, each once. -/
  calls : (callsMade log).Perm m.callsInTurn
  callsOf : ∀ (user : Nat) (a : UserAction), m.roster[user]? = some a →
    (callsMade log).countP (·.1 == user) = a.callCount
  length_calls : (callsMade log).length = (m.roster.map UserAction.callCount).sum
  /-- A visit is lost iff one of its calls crashes, and does not end the walk. -/
  onRecord : ∀ (user : Nat) (a : UserAction), m.roster[user]? = some a →
    ∃ w, report.walks[user]? = some w ∧ a.OnRecord user (service user) w
  /-- The requests are the calls of the users who have a record, without those of lost visits. -/
  totalRequests : report.totalRequests + m.callsLost report.walks =
    (m.roster.map UserAction.recordCount).sum
  allHeld : (∀ a ∈ m.roster, a.fits = true) → m.CountsAll report log

variable {service : Nat → Nat → Nat → CallEnd} {report : LoadReport} {log : List LoadEvent}

theorem countP_callsMade (hcalls : (callsMade log).Perm m.callsInTurn) {user : Nat}
    {a : UserAction} (ha : m.roster[user]? = some a) :
    (callsMade log).countP (·.1 == user) = a.callCount := by
  rw [hcalls.countP_eq, countP_callsInTurn ha, a.length_callsInTurn_eq]

theorem length_callsMade (hcalls : (callsMade log).Perm m.callsInTurn) :
    (callsMade log).length = (m.roster.map UserAction.callCount).sum := by
  rw [hcalls.length_eq, length_callsInTurn,
    List.map_congr_left fun a _ => a.length_callsInTurn_eq]

/-- The requests of a report, and the calls of the visits that are lost, come to the calls of the
    users who have a record. -/
theorem ReportInTurn.totalRequests_add (hreport : m.ReportInTurn service report) :
    report.totalRequests + m.callsLost report.walks =
      (m.roster.map UserAction.recordCount).sum := by
  have hsum : report.totalRequests = (report.walks.map fun w => w.results.length).sum := by
    obtain ⟨times, totalTimeMs, rfl⟩ := hreport.report_eq
    exact List.length_flatMap
  rw [hsum]
  apply sum_add_sum_zipWith
  rw [List.forall₂_iff_get]
  refine ⟨hreport.length.symm, fun i hi hi' => ?_⟩
  obtain ⟨w, hw, hrec⟩ := hreport.onRecord i _ (List.getElem?_eq_getElem hi)
  rw [List.getElem?_eq_getElem hi', Option.some_inj] at hw
  simpa [hw] using hrec.length_results_add

theorem ReportInTurn.concurrentUsers_eq (hreport : m.ReportInTurn service report) :
    report.concurrentUsers = m.roster.length := by
  rw [← hreport.length]
  obtain ⟨times, totalTimeMs, rfl⟩ := hreport.report_eq
  rfl

theorem ReportInTurn.accounted (hreport : m.ReportInTurn service report)
    (hcalls : (callsMade log).Perm m.callsInTurn) : m.Accounted service report log where
  users := ⟨hreport.concurrentUsers_eq, m.realizedUsers_eq⟩
  calls := hcalls
  callsOf _ _ := countP_callsMade hcalls
  length_calls := length_callsMade hcalls
  onRecord := hreport.onRecord
  totalRequests := hreport.totalRequests_add
  allHeld hfits := by
    have hcallCount : ∀ a ∈ m.roster, a.callCount = a.requestCount :=
      fun a ha => if_pos (hfits a ha)
    have hrecordCount : ∀ a ∈ m.roster, a.recordCount = a.requestCount :=
      fun a ha => if_pos (hfits a ha)
    refine ⟨fun user a ha => ?_, ?_, ?_⟩
    · rw [countP_callsMade hcalls ha, hcallCount a (List.mem_of_getElem? ha)]
    · rw [length_callsMade hcalls, List.map_congr_left hcallCount]
    · rw [hreport.totalRequests_add, List.map_congr_left hrecordCount]

end Mix

namespace Scheduler

/-- The report of an uncancelled run of a mix whose roster can be held agrees with the plan of the
    mix, whatever its calls come to and in whatever order; and however the run goes, it can go on to
    such a report. -/
theorem runMix_accounted {m : Mix} (hvalid : m.validate = .ok ())
    (hroster : m.roster.length < Mix.rosterLimit) {sched : Scheduler}
    (hlive : sched.cancelled = false) (place : Nat) (service : Nat → Nat → Nat → CallEnd) :
    (∀ moves o, LoadMove.cancel ∉ moves (.start m false) →
      sched.runMix m place ⟨service, moves⟩ = some o →
      ∃ report, o.result = .ok report ∧ m.Accounted service report (eventsAt place o.log)) ∧
    ∀ moves r, LoadMove.cancel ∉ moves →
      (LoadRun.start m false).play? m service moves = some r →
      ∃ more o, LoadMove.cancel ∉ more ∧
        sched.runMix m place ⟨service, fun _ => moves ++ more⟩ = some o := by
  have hready := Mix.ready_eq_ok_iff.mpr ⟨hvalid, hroster⟩
  constructor
  · intro moves o hmoves hrun
    obtain ⟨r, totalTimeMs, hplay, hall, hresult, hlog⟩ :=
      exists_run_of_uncancelled hready hlive hmoves hrun
    have hr := (LoadRun.sound_start m service false).play hplay
    refine ⟨_, hresult, ?_⟩
    rw [hlog, eventsAt_map]
    exact (hr.reportInTurn hall totalTimeMs).accounted
      ((LoadRun.traced_of_play hplay).callsMade_perm hr hall)
  · intro moves r hmoves hplay
    rw [← hlive] at hplay
    exact exists_runMix hready place hplay

theorem runMix_accounted_hugeAndSmall : hugeAndSmall.validate = .ok () ∧
    hugeAndSmall.roster.length < Mix.rosterLimit ∧
    ∃ o report, LoadMove.cancel ∉ secondFirst.moves (.start hugeAndSmall false) ∧
      (new .standard).runMix hugeAndSmall 0 secondFirst = some o ∧ o.result = .ok report ∧
      hugeAndSmall.Accounted secondFirst.service report (eventsAt 0 o.log) := by
  obtain ⟨o, hrun⟩ : ∃ o, (new .standard).runMix hugeAndSmall 0 secondFirst = some o := ⟨_, rfl⟩
  have hmoves : LoadMove.cancel ∉ secondFirst.moves (.start hugeAndSmall false) := by
    simp [secondFirst]
  have hroster : hugeAndSmall.roster.length < Mix.rosterLimit := by decide
  have hlive : (new .standard).cancelled = false := rfl
  obtain ⟨report, hresult, haccounted⟩ :=
    (runMix_accounted (m := hugeAndSmall) rfl hroster hlive 0 secondFirst.service).1
      secondFirst.moves o hmoves hrun
  exact ⟨rfl, hroster, o, report, hmoves, hrun, hresult, haccounted⟩

/-- One user who leaves a page of one call and goes on to a page that cannot be held. -/
def smallThenHuge : Mix where
  name := "long"
  description := ""
  users := 1
  actions := [⟨⟨"walk", "", [⟨"one", "", [pingAt 0.1]⟩, ⟨"all", "", [pingAt 1e18]⟩]⟩, 1.0⟩]

/-- The run of the user who is lost on the second page, while the call of the first one comes
    back. -/
def lostOnTheWay : Course where
  service _ page _ :=
    if page = 0 then .returned (.ofCall (pingAt 0.1).item.call 1.0 .epoch (.success .null))
    else .crashed
  moves _ :=
    [.user 0 .goOn, .user 0 (.call (.launch 0)), .user 0 (.call (.finish 0)),
      .user 0 (.call (.join 0)), .user 0 (.leave 1.0), .user 0 .goOn, .join 0, .conclude 2.0]

/-- The number of calls that a mix asks of the service. -/
def requestTotal (m : Mix) : Nat := Counter.total (m.roster.map UserAction.requestCount)

theorem requestTotal_eq (m : Mix) : requestTotal m =
    (m.actions.map fun w => assignmentCount w.weight m.users * w.item.requestCount).sum := by
  simp [requestTotal, Mix.roster, Counter.total_eq_sum, List.flatMap_def,
    List.sum_flatten, Function.comp_def]

/-- A user of an uncancelled run can make fewer calls than those of the action, and a run whose
    roster cannot be held has no report. -/
theorem not_runMix_countsAll :
    (¬ ∀ (m : Mix) (sched : Scheduler) (place : Nat) (course : Course) (o : Operation LoadReport),
      m.validate = .ok () → m.roster.length < Mix.rosterLimit → requestTotal m < Counter.size →
      sched.cancelled = false → LoadMove.cancel ∉ course.moves (.start m false) →
      sched.runMix m place course = some o →
      ∃ report, o.result = .ok report ∧ m.CountsAll report (eventsAt place o.log)) ∧
    ¬ ∀ (m : Mix) (sched : Scheduler) (place : Nat) (course : Course) (o : Operation LoadReport),
      m.validate = .ok () → m.roster.length < Counter.size → requestTotal m < Counter.size →
      sched.cancelled = false → LoadMove.cancel ∉ course.moves (.start m false) →
      sched.runMix m place course = some o → ∃ report, o.result = .ok report := by
  constructor
  · intro hclaim
    obtain ⟨o, hrun, hcalls⟩ : ∃ o, (new .standard).runMix smallThenHuge 0 lostOnTheWay = some o ∧
        callsMade (eventsAt 0 o.log) = [(0, 0, 0)] := ⟨_, rfl, rfl⟩
    have hmoves : LoadMove.cancel ∉ lostOnTheWay.moves (.start smallThenHuge false) := by
      simp [lostOnTheWay]
    obtain ⟨report, -, hcounts⟩ :=
      hclaim smallThenHuge _ 0 _ o rfl (by decide) (by decide) rfl hmoves hrun
    have hplanned : (smallThenHuge.roster.map UserAction.requestCount).sum = 10 ^ 19 + 1 := by
      decide
    have hlength := hcounts.length_calls
    rw [hcalls, hplanned] at hlength
    simp at hlength
  · intro hclaim
    have husers : crowd.roster.length < Counter.size := by
      rw [← Mix.realizedUsers_eq]
      decide
    have hrequests : requestTotal crowd < Counter.size := by
      rw [requestTotal_eq]
      decide
    obtain ⟨report, hresult⟩ := hclaim crowd (new .standard) 0 noMoves _ rfl husers hrequests rfl
      List.not_mem_nil (runMix_crowd _ _ _)
    cases hresult

end Scheduler

end LoadBench
