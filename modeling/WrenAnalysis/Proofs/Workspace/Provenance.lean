/-
# No read overwrites a text

A document may be edited while a read of the same file is in flight.  The edit wins,
whenever the read ends: an identity that is ready stays ready, and its module is the
one registered last by a seed, a change or an opening, if there was one, and otherwise
the one that the only read of it yielded.  A read that ends after the edit leaves the
registry as it is, follows no import, and is in no report
(`Workspace.perform_provenance`).

A text that does not parse is not an edit.  It leaves the whole workspace as it is.
-/

import WrenAnalysis.Proofs.Resolution.Provenance
import WrenAnalysis.Proofs.Workspace.Ownership

namespace WrenAnalysis
namespace Workspace

/-- After any run of a new workspace all its modules are recorded. -/
theorem activity_recorded_perform (files : List (String × Option String))
    (gated searchPaths : List String) (walkBudget : Nat) (actions : List Action) :
    ((fresh files gated searchPaths walkBudget).perform actions).activity.Recorded
      ((fresh files gated searchPaths walkBudget).history actions) := by
  have hn := named_fresh files gated searchPaths walkBudget
  have howned : Activity.Owned [] (fresh files gated searchPaths walkBudget).activity :=
    activity_owned_perform files gated searchPaths walkBudget []
  have hstart : Activity.Recorded [] (fresh files gated searchPaths walkBudget).activity :=
    ⟨Provenance.empty, fun i hi => absurd hi List.not_mem_nil,
      fun t ht => absurd ht List.not_mem_nil, fun report hr => absurd hr List.not_mem_nil,
      fun c hc => absurd hc List.not_mem_nil, List.Pairwise.nil⟩
  exact hstart.course (perform_course hn actions) howned

/-- A text that does not parse is refused, and nothing else happens. -/
theorem act_of_parse_error {text : String} {error : SyntaxError}
    (bad : Module.parse text = .error error) (w : Workspace) (path : String) (name : Option String) :
    (w.act (.seed path text)).1 = w ∧ (w.act (.change path text name)).1 = w ∧
      (w.act (.openDocument path text name)).1 = w := by
  have hchange : (w.change path text name).1 = w := by simp only [change, bad]
  refine ⟨by simp only [act, seed, bad], hchange, ?_⟩
  simp only [act, openDocument]
  split_ifs
  · rfl
  · rw [change_identity]
    exact hchange

/-- **No read overwrites a text.**  After any run: what is ready stays ready, whatever
comes next; a module that is ready is the text registered last under its identity, or,
if there is none, what the only read yielded that made the identity ready; of a read
that is consumed after a text was registered under its identity comes nothing, and no
report lists it; and a text that does not parse changes nothing. -/
theorem perform_provenance (files : List (String × Option String))
    (gated searchPaths : List String) (walkBudget : Nat) (actions : List Action) :
    let start := fresh files gated searchPaths walkBudget
    let w := start.perform actions
    let past := start.history actions
    (∀ identity, w.registry.state identity = .ready →
        ∀ later, (w.perform later).registry.state identity = .ready) ∧
      (∀ identity, w.registry.state identity = .ready →
        ∃ m, w.registry.get? identity = some m ∧
          (latestEdit past identity = some m ∨
            latestEdit past identity = none ∧ ∃ c, loadsOf past identity = [c] ∧
              c.load.identity = identity ∧ c.load.parse = .ok m)) ∧
      (past.Pairwise fun e f => ∀ c m, e = .edited c.load.identity m → f = .consumed c →
        c.Discarded ∧ ∀ report, Event.finished report ∈ past →
          c.load.identity ∉ report.loaded) ∧
      ∀ path text error, Module.parse text = .error error → ∀ name,
        (w.act (.seed path text)).1 = w ∧ (w.act (.change path text name)).1 = w ∧
          (w.act (.openDocument path text name)).1 = w := by
  intro start w past
  have hn : w.Named := (named_fresh ..).perform actions
  have hrec : w.activity.Recorded past :=
    activity_recorded_perform files gated searchPaths walkBudget actions
  refine ⟨fun identity hi later => ?_, fun identity hi => ?_, ?_,
    fun path text error bad name => act_of_parse_error bad w path name⟩
  · obtain ⟨-, hready⟩ := Registry.state_eq_ready_iff.1 hi
    have hlater : identity ∈ (w.perform later).registry.identities :=
      Activity.identities_of_course (perform_course hn later) hready
    have howned := activity_owned_perform files gated searchPaths walkBudget (actions ++ later)
    rw [perform_append] at howned
    exact Registry.state_eq_ready_iff.2
      ⟨fun hp => howned.held.exclusive identity hp hlater, hlater⟩
  · obtain ⟨-, hready⟩ := Registry.state_eq_ready_iff.1 hi
    obtain ⟨m, hm⟩ := Option.isSome_iff_exists.1 (Registry.get?_isSome_iff.2 hready)
    exact ⟨m, hm, hrec.provenance.stored identity m hm⟩
  · refine hrec.outrun.imp_of_mem fun {e f} _ hf hout c m he hc => ?_
    subst hc
    have hlate := hout c m he rfl
    refine ⟨Consumption.discarded_of_late hlate, fun report hr hmem => ?_⟩
    exact hrec.reported report hr _ hmem (hrec.late c hf hlate).2

end Workspace
end WrenAnalysis
