/-
# `ExecutionResult` — what an attempt hands on, and what it did

The result types of `app/executor.py` and `app/execution_service.py`, and one record
that has no counterpart in the source: `AttemptRecord`, what an attempt did on its way —
the rows it fetched, the filter's decision on each, the messages it built and those it
handed to the mailer, in order.  The program never reads it; the theorems do.
-/
import EarlyWarning.Mailer
import EarlyWarning.TemplateRenderer

namespace EarlyWarning

structure ExecutionMailResult where
  message : EmailMessage
  result : MailSendResult
deriving DecidableEq

structure ExecutionResult where
  status : ExecutionStatus
  rowCount : Nat := 0
  mailCount : Nat := 0
  errorType : String := ""
  errorMessage : Option String := none
  mailResults : List ExecutionMailResult := []
  sqlstate : String := ""
deriving DecidableEq

/-- `email_count` -/
def ExecutionResult.emailCount (result : ExecutionResult) : Nat := result.mailCount

/-- The dictionary `state` of `_build_suppression_filter`, with its set `seen_in_run`. -/
structure SuppressionState where
  newKeys : List String := []
  suppressedKeys : List String := []
  now : DateTime
  seenInRun : List String := []
deriving DecidableEq

structure ExecutionAttempt where
  result : ExecutionResult
  suppressionState : Option SuppressionState := none
deriving DecidableEq

/-- What one call of `_execute_rule_once` did. -/
structure AttemptRecord where
  /-- the reading of `utc_now()` in `_build_suppression_filter`, when suppression is on -/
  now : Option DateTime := none
  /-- `sql_client.query` was called -/
  queried : Bool := false
  /-- the rows it returned -/
  fetched : Option (List Row) := none
  /-- the filter's decisions, in the order of the rows: kept or withheld -/
  decisions : List (Row × Bool) := []
  /-- the rows the filter left; `_build_messages` gets them, and nothing else -/
  filtered : Option (List Row) := none
  /-- the messages `_build_messages` returned -/
  built : Option (List EmailMessage) := none
  /-- the messages passed to `mailer.send`, in order, and what became of each -/
  handed : List Delivery := []
  /-- the exception a handler of the attempt turned into a failed result -/
  caught : Option PyExc := none
  /-- what the attempt returned -/
  returned : Option ExecutionAttempt := none
deriving DecidableEq

end EarlyWarning
