/-
# Refusals

Whether a table admits an identity is settled by the table's rule alone, before anything is
looked up, counted or computed. A refusal is therefore the same for a table that does not exist
as for one that does not admit the identity, whatever state the master, its store and the clock
are in, and it leaves nothing behind that a later request could notice.

The second half of this is a statement about two runs. What their steps show is written down in
a transcript, and two runs that differ in nothing but refused requests have the same one.
-/

import ControlPlane.Proofs.Master.RowVisibility
import ControlPlane.Proofs.Master.Run
import Mathlib.Data.List.Forall2

namespace ControlPlane

/-! ## One refusal -/

namespace Master

variable {master : Master} {identity : Identity} {table : String}

theorem admittedRule_of_refused (h : ¬ master.rules.Admit identity table) :
    master.admittedRule identity table = .error .noAccess := by
  rw [admittedRule]
  cases hrule : master.rules.get? table with
  | none => rfl
  | some rule => exact if_neg fun hadmits => h ⟨rule, hrule, hadmits⟩

theorem authorize_of_refused (h : ¬ master.rules.Admit identity table) (env : Surroundings) :
    master.authorize env identity table = (.error .noAccess, master) := by
  rw [authorize, admittedRule_of_refused h]

theorem scopedQuery_of_refused (h : ¬ master.rules.Admit identity table)
    (env : Surroundings) : master.scopedQuery env identity table = (.error .noAccess, master) := by
  rw [scopedQuery, authorize_of_refused h]

theorem rowCount_of_refused (h : ¬ master.rules.Admit identity table) (env : Surroundings) :
    master.rowCount env identity table = (.error .noAccess, master) := by
  rw [rowCount, scopedQuery_of_refused h]

end Master

/-! ## Transcripts -/

/-- What a step shows to whoever took it. -/
inductive WorldReply
  | nothing
  | receipt (receipt : AnnounceReceipt)
  | purged (count : Nat)
  | answer (answer : Except Fault SessionAnswer)

namespace World

variable {w : World}

/-- The answer to a request on behalf of an identity. -/
def directAnswer (w : World) (identity : Identity) : DirectRequest → Except Fault SessionAnswer
  | .authorize table => (w.master.authorize w.env identity table).1.map .scope
  | .scopedQuery table => (w.master.scopedQuery w.env identity table).1.map .query
  | .rowCount table => (w.master.rowCount w.env identity table).1.map .count

def reply (w : World) : WorldStep → WorldReply
  | .change _ | .setAvailable _ | .moveClock _ => .nothing
  | .announce event => .receipt (w.master.announce event).1
  | .purge => .purged (w.master.purge w.now).1
  | .ask session request => .answer (session.answer w.env request w.master).1
  | .askAs identity request => .answer (w.directAnswer identity request)

/-- What the steps of a run show, one after the other. -/
def transcript (w : World) : List WorldStep → List WorldReply
  | [] => []
  | step :: steps => w.reply step :: (w.step step).transcript steps

section

variable {identity : Identity} {request : DirectRequest}
  (h : ¬ w.master.rules.Admit identity request.table)
include h

theorem step_of_refused : w.step (.askAs identity request) = w := by
  have hmaster : w.masterAfter identity request = w.master := by
    cases request with
    | authorize table => exact congrArg Prod.snd (Master.authorize_of_refused h w.env)
    | scopedQuery table => exact congrArg Prod.snd (Master.scopedQuery_of_refused h w.env)
    | rowCount table => exact congrArg Prod.snd (Master.rowCount_of_refused h w.env)
  rw [step, hmaster]

theorem reply_of_refused :
    w.reply (.askAs identity request) = .answer (.error .noAccess) := by
  refine congrArg WorldReply.answer ?_
  cases request with
  | authorize table =>
      exact congrArg (·.1.map SessionAnswer.scope) (Master.authorize_of_refused h w.env)
  | scopedQuery table =>
      exact congrArg (·.1.map SessionAnswer.query) (Master.scopedQuery_of_refused h w.env)
  | rowCount table =>
      exact congrArg (·.1.map SessionAnswer.count) (Master.rowCount_of_refused h w.env)

end

end World

/-! ## Two runs -/

/-- Two steps are the same, or both of them are requests that some rules refuse. -/
inductive SameButRefused (rules : TableRules) : WorldStep → WorldStep → Prop
  | same (step : WorldStep) : SameButRefused rules step step
  | refused {identity identity' : Identity} {request request' : DirectRequest}
      (h : ¬ rules.Admit identity request.table) (h' : ¬ rules.Admit identity' request'.table) :
      SameButRefused rules (.askAs identity request) (.askAs identity' request')

namespace World

/-- Such steps show the same and lead to the same world. -/
theorem sameButRefused_step {w : World} {step step' : WorldStep}
    (h : SameButRefused w.master.rules step step') :
    w.reply step = w.reply step' ∧ w.step step = w.step step' := by
  cases h with
  | same => exact ⟨rfl, rfl⟩
  | refused h h' =>
      rw [reply_of_refused h, reply_of_refused h', step_of_refused h, step_of_refused h']
      exact ⟨rfl, rfl⟩

theorem sameButRefused_run {w : World} {steps steps' : List WorldStep}
    (h : List.Forall₂ (SameButRefused w.master.rules) steps steps') :
    w.transcript steps = w.transcript steps' ∧ w.run steps = w.run steps' := by
  induction steps generalizing w steps' with
  | nil =>
      cases h
      exact ⟨rfl, rfl⟩
  | cons step steps ih =>
      cases h with
      | cons hstep hsteps =>
          obtain ⟨hreply, hnext⟩ := sameButRefused_step hstep
          rw [← masterRules_step w step] at hsteps
          obtain ⟨hreplies, hend⟩ := ih hsteps
          rw [hnext] at hreplies hend
          rw [transcript, transcript, run_cons, run_cons, hreply, hnext, hreplies, hend]
          exact ⟨rfl, rfl⟩

/-- Whatever state a master, its store and the clock are in, all three requests of an identity on
a table that has no rule, or none that admits it, are refused in the same way and leave the whole
master as it was. Two runs in which different requests are refused show the same all along, and
end in the same world. -/
theorem refusal_leaves_no_trace (w : World) :
    (∀ (identity : Identity) (table : String), ¬ w.master.rules.Admit identity table →
      w.master.authorize w.env identity table = (.error .noAccess, w.master)
      ∧ w.master.scopedQuery w.env identity table = (.error .noAccess, w.master)
      ∧ w.master.rowCount w.env identity table = (.error .noAccess, w.master))
    ∧ ∀ steps steps', List.Forall₂ (SameButRefused w.master.rules) steps steps' →
      w.transcript steps = w.transcript steps' ∧ w.run steps = w.run steps' := by
  refine ⟨fun identity table h => ?_, fun steps steps' h => sameButRefused_run h⟩
  exact ⟨Master.authorize_of_refused h w.env, Master.scopedQuery_of_refused h w.env,
    Master.rowCount_of_refused h w.env⟩

/-- During an outage an operator counts the rows of a table that refuses it, or of none. -/
theorem refusal_leaves_no_trace_of_outage :
    let w : World := ⟨{ Master.invoiceStore with isAvailable := false }, .zero,
      Master.unused Master.invoiceStore⟩
    let ops : Identity := .scopedOperator "ops" ∅ ∅
    ¬ w.master.rules.Admit ops "invoices" ∧ ¬ w.master.rules.Admit ops "nothing"
      ∧ w.master.rowCount w.env ops "invoices" = (.error .noAccess, w.master)
      ∧ w.transcript [.askAs ops (.rowCount "invoices"), .purge] =
        w.transcript [.askAs ops (.rowCount "nothing"), .purge] := by
  intro w ops
  have hrefused : ¬ w.master.rules.Admit ops "invoices" := by
    rintro ⟨rule, hrule, hadmits⟩
    obtain rfl : Master.invoiceRule = rule := Option.some.inj hrule
    cases hadmits
  have hmissing : ¬ w.master.rules.Admit ops "nothing" := by
    rintro ⟨rule, hrule, -⟩
    cases hrule
  refine ⟨hrefused, hmissing, ((refusal_leaves_no_trace w).1 ops "invoices" hrefused).2.2, ?_⟩
  refine ((refusal_leaves_no_trace w).2 _ _ ?_).1
  exact .cons (.refused hrefused hmissing) (.cons (.same .purge) .nil)

end World

end ControlPlane
