import Mathlib.Logic.Relation
import Mathlib.Tactic
import LoadBench.Proofs.Run.Trace

/-!
# What a reporter hears of a run

A call that has come back is counted, and its own task then tells the reporter of it. Between the
two, other calls can start, end and be told of, but the batch is not settled before everything about
its calls has been told. The log of a run has every call told of as soon as it is counted; what is
heard of the run is that log with the words on progress put off.

Results:
* `Heard.split`: the events that are not about a call are heard between the same others.
* `ScenarioRun.exists_before_report`: a run that has its report drew it up when every iteration was
  settled.
* `Scenario.exists_run_of_uncancelled`: an uncancelled run with a result has its report.
-/

namespace LoadBench

/-! ## Words put off -/

/-- The event is about one call: the call starts, ends, or is told of. -/
def ScenarioEvent.isOfCall : ScenarioEvent → Bool
  | called .. => true
  | ended .. => true
  | progress .. => true
  | _ => false

/-- The word of a call that has come back is put off until after the next event about a call. -/
inductive PutOff : List ScenarioEvent → List ScenarioEvent → Prop
  | swap (before after : List ScenarioEvent) (completed total : Nat) (scenario : String)
    {e : ScenarioEvent} (he : e.isOfCall = true) :
    PutOff (before ++ .progress completed total scenario :: e :: after)
      (before ++ e :: .progress completed total scenario :: after)

/-- What can be heard of a run that leaves a log: words on progress are put off any number of
    times. -/
def Heard : List ScenarioEvent → List ScenarioEvent → Prop := Relation.ReflTransGen PutOff

theorem PutOff.perm {log heard : List ScenarioEvent} (h : PutOff log heard) : log.Perm heard := by
  cases h with
  | swap before after completed total scenario he => exact (List.Perm.swap _ _ _).append_left before

/-- Every event stands in both between the same others, except that the word put off and the event
    that it lets pass change sides. -/
theorem PutOff.split {log heard before after : List ScenarioEvent} {x : ScenarioEvent}
    (h : PutOff log heard) (hsplit : heard = before ++ x :: after) :
    ∃ before' after', log = before' ++ x :: after' ∧
      (before'.Perm before ∧ after'.Perm after ∨ x.isOfCall = true ∧
        ((∃ n total scenario, before' = before ++ [.progress n total scenario]) ∨
          ∃ e, before = before' ++ [e])) := by
  cases h with
  | @swap first last completed total scenario e he =>
    rcases append_eq_append_cons hsplit with ⟨more, rfl⟩ | ⟨more, rfl, hmore⟩
    · -- the two that change places come after the event
      have hafter : more ++ e :: .progress completed total scenario :: last = after := by
        simpa using hsplit
      refine ⟨before, more ++ .progress completed total scenario :: e :: last, by simp,
        .inl ⟨.refl _, ?_⟩⟩
      rw [← hafter]
      exact (List.Perm.swap _ _ _).append_left more
    · rcases more with _ | ⟨e', _ | ⟨p, more⟩⟩
      · obtain ⟨rfl, -⟩ := List.cons.inj hmore
        exact ⟨first ++ [.progress completed total scenario], last, by simp,
          .inr ⟨he, .inl ⟨completed, total, scenario, by simp⟩⟩⟩
      · simp only [List.cons_append, List.nil_append, List.cons.injEq] at hmore
        obtain ⟨rfl, rfl, -⟩ := hmore
        exact ⟨first, e :: last, rfl, .inr ⟨rfl, .inr ⟨e, rfl⟩⟩⟩
      · simp only [List.cons_append, List.cons.injEq] at hmore
        obtain ⟨rfl, rfl, rfl⟩ := hmore
        exact ⟨first ++ .progress completed total scenario :: e :: more, after, by simp,
          .inl ⟨(List.Perm.swap _ _ _).append_left first, .refl _⟩⟩

namespace Heard

variable {log heard before after : List ScenarioEvent} {x : ScenarioEvent}

theorem perm (h : Heard log heard) : log.Perm heard := by
  induction h with
  | refl => exact .refl _
  | tail _ hstep ih => exact ih.trans hstep.perm

/-- An event that is not about a call is heard after the same events as in the log, and before the
    same. -/
theorem split (h : Heard log heard) (hx : x.isOfCall = false)
    (hsplit : heard = before ++ x :: after) :
    ∃ before' after', log = before' ++ x :: after' ∧ before'.Perm before ∧ after'.Perm after := by
  induction h generalizing before after with
  | refl => exact ⟨before, after, hsplit, .refl _, .refl _⟩
  | tail _ hstep ih =>
    obtain ⟨first, last, hmiddle, ⟨hfirst, hlast⟩ | ⟨hcall, -⟩⟩ := hstep.split hsplit
    · obtain ⟨before', after', hlog, hbefore, hafter⟩ := ih hmiddle
      exact ⟨before', after', hlog, hbefore.trans hfirst, hafter.trans hlast⟩
    · rw [hx] at hcall
      cases hcall

end Heard

/-! ## How a run comes to its report -/

/-- A run that has its report drew it up when every iteration was settled, with no batch open. -/
theorem ScenarioRun.exists_before_report {s : Scenario} {service : Nat → Nat → CallEnd}
    {cancelled : Bool} {moves : List ScenarioMove} {r : ScenarioRun} {report : ScenarioReport}
    (h : (start cancelled).play? s service moves = some r)
    (hreport : r.result = some (.ok report)) :
    ∃ moves' r', (start cancelled).play? s service moves' = some r' ∧ r'.result = none ∧
      r'.batch = none ∧ s.iterations ≤ r'.settled.length ∧ r'.completed = r.completed ∧
      r.log = r'.log ++ [.completed report] := by
  induction moves using List.reverseRecOn generalizing r with
  | nil =>
    cases h
    cases hreport
  | append_singleton moves move ih =>
    obtain ⟨r', hplay, hstep⟩ := foldlM_concat_some.mp h
    cases step_of_step? hstep with
    | cancel hlive =>
      obtain ⟨moves', before, hbefore⟩ := ih hplay hreport
      exact ⟨moves', before, hbefore⟩
    | call hrun hopen hjoin hmove => simp [hrun] at hreport
    | conclude totalElapsedMs runId hrun hclosed hall =>
      cases hreport
      exact ⟨moves, r', hplay, hrun, hclosed, hall, rfl, rfl⟩
    | refuse => cases hreport
    | giveUp => cases hreport
    | openBatch hrun => rw [hrun] at hreport; cases hreport
    | settle _ _ hrun => rw [hrun] at hreport; cases hreport

/-- An uncancelled run with a result is one that has its report. -/
theorem Scenario.exists_run_of_uncancelled {s : Scenario} (hvalid : s.validate = .ok ())
    (hprepared : s.prepare = .ok ()) {service : Nat → Nat → CallEnd}
    {pick : ScenarioRun → List ScenarioMove}
    (hmoves : ScenarioMove.cancel ∉ pick (.start false))
    {p : Performed ScenarioEvent ScenarioReport}
    (hperform : s.perform service false pick = some p) :
    ∃ r report, (ScenarioRun.start false).play? s service (pick (.start false)) = some r ∧
      r.result = some (.ok report) ∧ p.result = .ok report ∧ p.log = r.log := by
  obtain ⟨r, hplay, hresult, hlog, -⟩ := (perform_of_prepared hvalid hprepared).mp hperform
  cases ((ScenarioRun.sound_start s service false).play hplay).outcome with
  | pending hrun => rw [hrun] at hresult; cases hresult
  | cancelled hclosed hcancel =>
    rw [ScenarioRun.cancelled_of_play rfl hmoves hplay] at hcancel
    cases hcancel
  | reported totalElapsedMs runId hclosed hall hreport =>
    rw [hreport, Option.some_inj] at hresult
    exact ⟨r, _, hplay, hreport, hresult.symm, hlog⟩

end LoadBench
