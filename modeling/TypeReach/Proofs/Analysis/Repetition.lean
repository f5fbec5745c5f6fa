import TypeReach.Proofs.Analysis.Conclusion
import TypeReach.Proofs.Resolution.Accounting

/-!
# Runs that are repeated

An analysis keeps one session for all of its runs, and the session may have
been asked for anything before the first of them.  As long as the disk stays as
it is, this shows in nothing that a run decides or leaves: a run has one
conclusion, and every faithful session comes to it.  Only the counts of a report
are those of the session.  A second run asks for no type that the first one did
not ask for, so it reads nothing and counts the same.
-/

namespace TypeReach.Analysis

open Files (Disk)
open Resolution (Call Session Sources)

/-- Two runs in faithful sessions differ at most in what their reports count. -/
theorem run_eq_of_faithful
    {analysis : Analysis} {disk : Disk} {first second : Session}
    (faithfulFirst : first.IsFaithful (analysis.sources disk))
    (faithfulSecond : second.IsFaithful (analysis.sources disk))
    (artifacts : Artifacts) :
    (analysis.run disk ⟨first, artifacts⟩).1.map Report.uncounted =
        (analysis.run disk ⟨second, artifacts⟩).1.map Report.uncounted ∧
      (analysis.run disk ⟨first, artifacts⟩).2.artifacts =
        (analysis.run disk ⟨second, artifacts⟩).2.artifacts := by
  rcases @run_eq_conclusion analysis disk ⟨first, artifacts⟩ faithfulFirst with
    ⟨afterFirst, _, ranFirst⟩
  rcases @run_eq_conclusion analysis disk ⟨second, artifacts⟩ faithfulSecond with
    ⟨afterSecond, _, ranSecond⟩
  rw [ranFirst, ranSecond, Findings.map_uncounted_report, Findings.map_uncounted_report]
  exact ⟨rfl, rfl⟩

/-- Once a run has ended, running again changes nothing that is kept or counted. -/
theorem run_again
    {analysis : Analysis} {disk : Disk} {session : Session}
    (faithful : session.IsFaithful (analysis.sources disk))
    (artifacts : Artifacts) :
    let first := analysis.run disk ⟨session, artifacts⟩
    let second := analysis.run disk ⟨first.2.session, artifacts⟩
    second.1 = first.1 ∧
      second.2.artifacts = first.2.artifacts ∧
      second.2.session.cache = first.2.session.cache ∧
      second.2.session.reads = first.2.session.reads := by
  intro first second
  rcases @run_eq_conclusion analysis disk ⟨session, artifacts⟩ faithful with
    ⟨between, advances, ran⟩
  rcases @run_eq_conclusion analysis disk ⟨between, artifacts⟩ advances.faithful with
    ⟨after, again, ranAgain⟩
  -- Everything that the second run asks for is known from the first one.
  have known : ∀ name ∈ analysis.asked disk, name ∈ between.cache.names := by
    intro name asked
    exact (advances.known name).mpr (Or.inr asked)
  rcases again.settled known with ⟨sameCache, sameReads⟩
  have counted : Findings.report analysis after = Findings.report analysis between := by
    funext findings
    simp only [Findings.report, sameCache, sameReads]
  have isFirst : first = _ := ran
  have isSecond : second = analysis.run disk ⟨between, artifacts⟩ := by
    show analysis.run disk ⟨first.2.session, artifacts⟩ = _
    rw [isFirst]
  rw [isSecond, isFirst, ranAgain, counted]
  exact ⟨rfl, rfl, sameCache, sameReads⟩

/--
Whatever a session was asked for before, a run ends as one in a new session does:
with the same failure or the same report up to its counts, and with the same
artifacts.  Running again gives the same report with the same counts.
-/
theorem run_after_performAll
    (analysis : Analysis) (disk : Disk) (calls : List Call) :
    let earlier := Call.performAll (analysis.sources disk) .start calls
    let fresh := analysis.run disk ⟨.start, .empty⟩
    let first := analysis.run disk ⟨earlier, .empty⟩
    let second := analysis.run disk ⟨first.2.session, .empty⟩
    (first.1.map Report.uncounted = fresh.1.map Report.uncounted ∧
        first.2.artifacts = fresh.2.artifacts) ∧
      second.1 = first.1 ∧ second.2.artifacts = first.2.artifacts := by
  intro earlier fresh first second
  have new := Session.isFaithful_start (analysis.sources disk)
  have asked := (Call.advances_performAll new calls).faithful
  have again := run_again asked .empty
  exact ⟨run_eq_of_faithful asked new .empty, again.1, again.2.1⟩

end TypeReach.Analysis
