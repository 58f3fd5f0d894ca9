import Mathlib.Tactic
import LoadBench.Proofs.Plan.Mix
import LoadBench.Proofs.Run.Batch

/-!
# A user's walk agrees with the calls made in turn

`User.Step` says what each move of a user can do. What a user keeps (`UserTask.InTurn`) is that the
visits so far are those of the calls made in turn; a user is lost only on a page that cannot be
held.

Results:
* `User.step?_eq_some_iff`: the moves that are possible, and the user after each.
* `User.inTurn_step`: what one move keeps.
* `User.exists_step`: a user goes on to the end of the walk.
* `User.remaining_step`: a walk ends.
-/

namespace LoadBench

/-- The event is about what a user does: a call, or a page that is left. -/
def LoadEvent.isOfUser : LoadEvent → Bool
  | called .. => true
  | ended .. => true
  | left .. => true
  | _ => false

namespace User

variable {service : Nat → Nat → CallEnd} {index : Nat} {cancelled : Bool} {u u' : User}
  {move : UserMove} {events : List LoadEvent}

/-! ## Moves -/

/-- What can be seen of a move on a page. -/
def seen (index page : Nat) : BatchMove → List LoadEvent
  | .launch i => [.called index page i]
  | .finish i => [.ended index page i]
  | .join _ => []

/-- The visit that a settled batch leaves behind. -/
def visit (page : Page) (b : Batch) (elapsedMs : Float) : PageVisit :=
  match b.results? with
  | some results => .completed page.name elapsedMs results
  | none => .lost page.name elapsedMs

/-- What each move of a user needs, the user after it, and what can be seen of it. -/
inductive Step (service : Nat → Nat → CallEnd) (index : Nat) (cancelled : Bool) :
    User → UserMove → User → List LoadEvent → Prop
  | arrive {u : User} {visits : List PageVisit} (htask : u.task = .between visits)
    (hend : u.action.pages[visits.length]? = none) :
    Step service index cancelled u .goOn
      { u with task := .ended (some (.ofVisits index u.action.name visits)) } []
  | crash {u : User} {visits : List PageVisit} {page : Page} (htask : u.task = .between visits)
    (hpage : u.action.pages[visits.length]? = some page) (hcalls : page.calls? = none) :
    Step service index cancelled u .goOn { u with task := .crashed } []
  | halt {u : User} {visits : List PageVisit} {page : Page} {calls : List Call}
    (htask : u.task = .between visits) (hpage : u.action.pages[visits.length]? = some page)
    (hcalls : page.calls? = some calls) (hcancel : cancelled = true) :
    Step service index cancelled u .goOn { u with task := .ended none } []
  | enter {u : User} {visits : List PageVisit} {page : Page} {calls : List Call}
    (htask : u.task = .between visits) (hpage : u.action.pages[visits.length]? = some page)
    (hcalls : page.calls? = some calls) (hlive : cancelled = false) :
    Step service index cancelled u .goOn
      { u with task := .visiting visits (.start calls.length) } []
  | call {u : User} {visits : List PageVisit} {b b' : Batch} {m : BatchMove}
    (htask : u.task = .visiting visits b) (hjoin : m.isJoin = true → cancelled = false)
    (hmove : b.step? (service visits.length) m = some b') :
    Step service index cancelled u (.call m) { u with task := .visiting visits b' }
      (seen index visits.length m)
  | leave {u : User} {visits : List PageVisit} {b : Batch} {page : Page} (elapsedMs : Float)
    (htask : u.task = .visiting visits b) (hlive : cancelled = false) (hdone : b.isDone = true)
    (hpage : u.action.pages[visits.length]? = some page) :
    Step service index cancelled u (.leave elapsedMs)
      { u with task := .between (visits ++ [visit page b elapsedMs]) }
      [.left index visits.length b.broken]
  | giveUp {u : User} {visits : List PageVisit} {b : Batch} (htask : u.task = .visiting visits b)
    (hcancel : cancelled = true) :
    Step service index cancelled u .giveUp { u with task := .ended none } []

theorem step_of_step? (h : u.step? service index cancelled move = some (u', events)) :
    Step service index cancelled u move u' events := by
  cases htask : u.task with
  | between visits =>
    cases move <;> simp only [step?, htask, reduceCtorEq] at h
    cases hpage : u.action.pages[visits.length]? with
    | none => rw [hpage] at h; cases h; exact .arrive htask hpage
    | some page =>
      rw [hpage] at h
      cases hcalls : page.calls? with
      | none => simp only [hcalls] at h; cases h; exact .crash htask hpage hcalls
      | some calls =>
        simp only [hcalls] at h
        split_ifs at h with hcancel
        · cases h; exact .halt htask hpage hcalls hcancel
        · cases h; exact .enter htask hpage hcalls (by simpa using hcancel)
  | visiting visits b =>
    cases move with
    | goOn => simp only [step?, htask, reduceCtorEq] at h
    | call m =>
      simp only [step?, htask] at h
      split_ifs at h with hno
      obtain ⟨b', hmove, h⟩ := Option.bind_eq_some_iff.mp h
      cases h
      have hstep : Step service index cancelled u (.call m) _ _ :=
        .call htask (by simpa using hno) hmove
      cases m <;> exact hstep
    | leave elapsedMs =>
      simp only [step?, htask] at h
      split_ifs at h with hno
      rw [Bool.or_eq_true, not_or, Bool.not_eq_true, Bool.not_eq_true', Bool.not_eq_false] at hno
      obtain ⟨page, hpage, h⟩ := Option.bind_eq_some_iff.mp h
      cases h
      exact .leave elapsedMs htask hno.1 hno.2 hpage
    | giveUp =>
      simp only [step?, htask] at h
      split_ifs at h with hcancel
      cases h
      exact .giveUp htask hcancel
  | _ => cases move <;> simp [step?, htask] at h

theorem Step.step? (h : Step service index cancelled u move u' events) :
    u.step? service index cancelled move = some (u', events) := by
  cases h with
  | arrive htask hend => simp only [User.step?, htask, hend]
  | crash htask hpage hcalls => simp only [User.step?, htask, hpage, hcalls]
  | halt htask hpage hcalls hcancel =>
    simp only [User.step?, htask, hpage, hcalls, hcancel, if_true]
  | enter htask hpage hcalls hlive =>
    simp [User.step?, htask, hpage, hcalls, hlive]
  | @call visits b b' m htask hjoin hmove =>
    have hno : (m.isJoin && cancelled) = false := by
      rw [Bool.and_eq_false_iff]
      cases hm : m.isJoin with
      | true => exact .inr (hjoin hm)
      | false => exact .inl rfl
    simp only [User.step?, htask, hno, hmove]
    cases m <;> rfl
  | @leave _ b _ elapsedMs htask hlive hdone hpage =>
    cases hresults : b.results? <;>
      simp [User.step?, htask, hlive, hdone, hpage, visit, hresults]
  | giveUp htask hcancel => simp only [User.step?, htask, hcancel, if_true]

theorem step?_eq_some_iff :
    u.step? service index cancelled move = some (u', events) ↔
      Step service index cancelled u move u' events :=
  ⟨step_of_step?, Step.step?⟩

theorem Step.action_eq (h : Step service index cancelled u move u' events) :
    u'.action = u.action := by
  cases h <;> rfl

/-- A user of whom the run has taken note does not move, and no move makes the run take note. -/
theorem Step.not_joined (h : Step service index cancelled u move u' events) :
    u.isJoined = false ∧ u'.isJoined = false := by
  cases h <;> simp [isJoined, *]

theorem Step.isOfUser (h : Step service index cancelled u move u' events) :
    ∀ e ∈ events, e.isOfUser = true := by
  intro e he
  cases h with
  | call htask hjoin hmove =>
    rename_i m
    cases m with
    | launch i => obtain rfl := List.mem_singleton.mp he; rfl
    | finish i => obtain rfl := List.mem_singleton.mp he; rfl
    | join i => cases he
  | leave elapsedMs htask hlive hdone hpage => obtain rfl := List.mem_singleton.mp he; rfl
  | _ => cases he

/-- What a move shows is lost on one who only looks at the run itself. -/
theorem Step.filterMap_eq_nil (h : Step service index cancelled u move u' events) {β : Type}
    {f : LoadEvent → Option β} (hf : ∀ e : LoadEvent, e.isOfUser = true → f e = none) :
    events.filterMap f = [] := by
  rw [List.filterMap_eq_nil_iff]
  intro e he
  exact hf e (h.isOfUser e he)

end User

/-! ## What every user keeps -/

/-- Some visits are those of the first pages of an action, which can be held, with the calls made in
    turn. -/
structure UserAction.Visited (a : UserAction) (service : Nat → Nat → CallEnd)
    (visits : List PageVisit) : Prop where
  length_le : visits.length ≤ a.pages.length
  held : ∀ k < visits.length, ∀ page : Page, a.pages[k]? = some page → page.calls?.isSome = true
  visit : ∀ (k : Nat) (v : PageVisit) (page : Page), visits[k]? = some v →
    a.pages[k]? = some page → v = page.visitInTurn (service k) v.totalTimeMs

namespace UserAction

variable {a : UserAction} {service : Nat → Nat → CallEnd} {visits : List PageVisit}

theorem visited_nil (a : UserAction) (service : Nat → Nat → CallEnd) : a.Visited service [] where
  length_le := Nat.zero_le _
  held := by simp
  visit := by simp

theorem Visited.concat (hv : a.Visited service visits) {page : Page} {v : PageVisit}
    (hpage : a.pages[visits.length]? = some page) (hheld : page.calls?.isSome = true)
    (hvisit : v = page.visitInTurn (service visits.length) v.totalTimeMs) :
    a.Visited service (visits ++ [v]) where
  length_le := by
    simpa using (List.getElem?_eq_some_iff.mp hpage).1
  held k hk other hother := by
    rw [List.length_append, List.length_singleton] at hk
    rcases Nat.lt_succ_iff_lt_or_eq.mp hk with hlt | rfl
    · exact hv.held k hlt other hother
    · rw [hpage, Option.some_inj] at hother
      rwa [← hother]
  visit k w other hw hother := by
    rcases Nat.lt_trichotomy k visits.length with hlt | rfl | hlt
    · rw [List.getElem?_append_left hlt] at hw
      exact hv.visit k w other hw hother
    · rw [List.getElem?_concat_length, Option.some_inj] at hw
      rw [hpage, Option.some_inj] at hother
      rwa [← hw, ← hother]
    · rw [List.getElem?_eq_none (by simpa using hlt)] at hw
      cases hw

/-- A user at the end of the walk has visited all pages, and each of them can be held. -/
theorem Visited.fits (hv : a.Visited service visits) (hend : a.pages[visits.length]? = none) :
    a.fits = true := by
  have hle := List.getElem?_eq_none_iff.mp hend
  rw [UserAction.fits, List.all_eq_true]
  intro page hpage
  obtain ⟨k, hk, rfl⟩ := List.getElem_of_mem hpage
  exact hv.held k (by omega) _ (List.getElem?_eq_getElem hk)

/-- The walk of a user at its end is the walk in turn, with the times at which the visits were
    measured. -/
theorem Visited.walk_eq (hv : a.Visited service visits)
    (hend : a.pages[visits.length]? = none) (index : Nat) :
    ∃ times, UserWalk.ofVisits index a.name visits = a.walkInTurn index service times := by
  have hlen : visits.length = a.pages.length :=
    le_antisymm hv.length_le (List.getElem?_eq_none_iff.mp hend)
  refine ⟨fun k => (visits[k]?.map (·.totalTimeMs)).getD 0.0, congrArg _ ?_⟩
  apply List.ext_getElem?
  intro k
  rw [List.getElem?_mapIdx]
  by_cases hk : k < a.pages.length
  · have hvisit := List.getElem?_eq_getElem (hlen.symm ▸ hk : k < visits.length)
    have hpage := List.getElem?_eq_getElem hk
    simp only [hvisit, hpage, Option.map_some, Option.getD_some]
    exact congrArg some (hv.visit k _ _ hvisit hpage)
  · rw [List.getElem?_eq_none (by omega), List.getElem?_eq_none (by omega)]
    rfl

theorem fits_eq_false {page : Page} {k : Nat} (hpage : a.pages[k]? = some page)
    (hcalls : page.calls? = none) : a.fits = false := by
  rw [UserAction.fits, List.all_eq_false]
  exact ⟨page, List.mem_of_getElem? hpage, by simp [hcalls]⟩

end UserAction

/-- What a user is doing agrees with the walk in turn: the visits so far are in turn and the open
    batch is one of the next page; a walk at its end is the one in turn; a user is lost only on a
    page that cannot be held, and stops only when the run is cancelled. -/
inductive UserTask.InTurn (a : UserAction) (service : Nat → Nat → CallEnd) (index : Nat)
    (cancelled : Bool) : UserTask → Prop
  | between {visits : List PageVisit} (hvisits : a.Visited service visits) :
    InTurn a service index cancelled (.between visits)
  | visiting {visits : List PageVisit} {b : Batch} {page : Page}
    (hvisits : a.Visited service visits) (hpage : a.pages[visits.length]? = some page)
    (hheld : page.calls?.isSome = true) (hbatch : b.Sound (service visits.length) page.size) :
    InTurn a service index cancelled (.visiting visits b)
  | ended (times : Nat → Float) (hfits : a.fits = true) :
    InTurn a service index cancelled (.ended (some (a.walkInTurn index service times)))
  | stopped (hcancel : cancelled = true) : InTurn a service index cancelled (.ended none)
  | crashed (hfits : a.fits = false) : InTurn a service index cancelled .crashed
  | joined : InTurn a service index cancelled .joined

theorem UserTask.InTurn.cancel {a : UserAction} {service : Nat → Nat → CallEnd} {index : Nat}
    {cancelled : Bool} {task : UserTask} (h : task.InTurn a service index cancelled) :
    task.InTurn a service index true := by
  cases h with
  | between hvisits => exact .between hvisits
  | visiting hvisits hpage hheld hbatch => exact .visiting hvisits hpage hheld hbatch
  | ended times hfits => exact .ended times hfits
  | stopped => exact .stopped rfl
  | crashed hfits => exact .crashed hfits
  | joined => exact .joined

namespace User

variable {service : Nat → Nat → CallEnd} {index : Nat} {cancelled : Bool} {u u' : User}
  {move : UserMove} {events : List LoadEvent}

theorem visit_eq {page : Page} {ends : Nat → CallEnd} {b : Batch} (hb : b.Sound ends page.size)
    (hdone : b.isDone = true) (elapsedMs : Float) :
    visit page b elapsedMs = page.visitInTurn ends elapsedMs := by
  have hresults := hb.results?_eq hdone
  cases hturn : resultsInTurn page.size ends <;> simp [visit, Page.visitInTurn, hresults, hturn]

/-- Whatever move a user makes, the walk stays the one in turn. -/
theorem inTurn_step (hu : u.task.InTurn u.action service index cancelled)
    (h : u.step? service index cancelled move = some (u', events)) :
    u'.task.InTurn u'.action service index cancelled := by
  cases step_of_step? h with
  | arrive htask hend =>
    rw [htask] at hu
    cases hu with
    | between hvisits =>
      obtain ⟨times, hwalk⟩ := hvisits.walk_eq hend index
      rw [hwalk]
      exact .ended times (hvisits.fits hend)
  | crash htask hpage hcalls => exact .crashed (UserAction.fits_eq_false hpage hcalls)
  | halt htask hpage hcalls hcancel => exact .stopped hcancel
  | enter htask hpage hcalls hlive =>
    rw [htask] at hu
    cases hu with
    | between hvisits =>
      refine .visiting hvisits hpage (by simp [hcalls]) ?_
      rw [Page.length_of_calls? hcalls]
      exact Batch.sound_start _ _
  | call htask hjoin hmove =>
    rw [htask] at hu
    cases hu with
    | visiting hvisits hpage hheld hbatch =>
      exact .visiting hvisits hpage hheld (hbatch.step hmove)
  | leave elapsedMs htask hlive hdone hpage =>
    rw [htask] at hu
    cases hu with
    | visiting hvisits hpage' hheld hbatch =>
      obtain rfl := Option.some_inj.mp (hpage'.symm.trans hpage)
      refine .between (hvisits.concat hpage hheld ?_)
      rw [visit_eq hbatch hdone, visitInTurn_totalTimeMs]
  | giveUp htask hcancel => exact .stopped hcancel

/-! ## Every walk comes to its end -/

/-- A user of an uncancelled run goes on until the run can take note of the walk or the loss. -/
theorem exists_step (hu : u.task.InTurn u.action service index false) :
    (∃ move u' events, u.step? service index false move = some (u', events)) ∨
      (∃ walk, u.task = .ended (some walk)) ∨ u.task = .crashed ∨ u.isJoined = true := by
  cases htask : u.task with
  | between visits =>
    cases hpage : u.action.pages[visits.length]? with
    | none => exact .inl ⟨_, _, _, (Step.arrive htask hpage).step?⟩
    | some page =>
      cases hcalls : page.calls? with
      | none => exact .inl ⟨_, _, _, (Step.crash htask hpage hcalls).step?⟩
      | some calls => exact .inl ⟨_, _, _, (Step.enter htask hpage hcalls rfl).step?⟩
  | visiting visits b =>
    rw [htask] at hu
    cases hu with
    | visiting hvisits hpage hheld hbatch =>
      cases hdone : b.isDone with
      | true => exact .inl ⟨_, _, _, (Step.leave 0.0 htask rfl hdone hpage).step?⟩
      | false =>
        obtain ⟨m, b', hmove⟩ := Batch.exists_step (service visits.length) hdone
        exact .inl ⟨_, _, _, (Step.call htask (fun _ => rfl) hmove).step?⟩
  | ended walk =>
    rw [htask] at hu
    cases hu with
    | ended times hfits => exact .inr (.inl ⟨_, rfl⟩)
    | stopped hcancel => cases hcancel
  | crashed => exact .inr (.inr (.inl rfl))
  | joined => exact .inr (.inr (.inr (by rw [isJoined, htask])))

/-- The most moves that some pages take: each is opened and left, and every call makes three. -/
def pageMoves (pages : List Page) : Nat := (pages.map fun p => 3 * p.size + 2).sum

/-- The most moves that a user has still to make, with the one by which the run takes note. -/
def remaining (u : User) : Nat :=
  match u.task with
  | .between visits => pageMoves (u.action.pages.drop visits.length) + 2
  | .visiting visits b => b.remaining + pageMoves (u.action.pages.drop (visits.length + 1)) + 3
  | .ended _ => 1
  | .crashed => 1
  | .joined => 0

theorem remaining_step (h : u.step? service index cancelled move = some (u', events)) :
    u'.remaining < u.remaining := by
  cases step_of_step? h with
  | enter htask hpage hcalls hlive =>
    obtain ⟨hlt, rfl⟩ := List.getElem?_eq_some_iff.mp hpage
    simp only [remaining, htask, Batch.remaining_start, Page.length_of_calls? hcalls, pageMoves,
      List.drop_eq_getElem_cons hlt, List.map_cons, List.sum_cons]
    omega
  | call htask hjoin hmove =>
    have := Batch.remaining_step hmove
    simp only [remaining, htask]
    omega
  | leave elapsedMs htask hlive hdone hpage =>
    simp only [remaining, htask, List.length_append, List.length_singleton]
    omega
  | _ => simp only [remaining, *]; omega

end User

end LoadBench
