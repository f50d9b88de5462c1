import SavedBasic.Statement

/-!
# Placing a statement

A new statement takes the last open place of a line. An empty statement gives up its place, text that
was never understood takes one statement behind it, and a single-line `IF` hands the new statement to
the branch that is being written. An `ELSE` that finds this branch taken starts the other branch of the
innermost `IF` that lacks one.
-/

namespace SavedBasic

/-- What becomes of a statement that is offered another one. -/
inductive Placement where
  /-- the statement with the new one in its place -/
  | placed (result : Statement)
  /-- the statement has no open place -/
  | full
  /-- the statement has no open place, and nothing around it has one either -/
  | refused

namespace Statement

/-- Offers a new statement to the last open place of a statement. Statements stand in one another as
deep as they may: a decoder that calls itself for each of them may have a limit to that, which is left
out of account here. -/
def place : Statement → (new : Statement) → Placement
  | empty, new => .placed new
  | misread text, new => .placed (misreadBefore text new)
  | ifThen condition action, new =>
    match action.place new with
    | .placed action => .placed (ifThen condition action)
    | .full =>
      match new with
      | otherwise alternative => .placed (ifThenElse condition action alternative)
      | _ => .refused
    | .refused => .refused
  | ifThenElse condition action alternative, new =>
    match alternative.place new with
    | .placed alternative => .placed (ifThenElse condition action alternative)
    | _ => .refused
  | _, _ => .full

/-- One step from a statement into one that it contains. -/
inductive Branch where
  /-- into the statement behind text that was never understood -/
  | rest
  /-- into the first branch of an `IF` -/
  | action
  /-- into the other branch of an `IF` -/
  | alternative
deriving DecidableEq

/-- The way to the place that a new statement will take. -/
def openPlace : Statement → List Branch
  | misread _ => [.rest]
  | ifThen _ action => .action :: openPlace action
  | ifThenElse _ _ alternative => .alternative :: openPlace alternative
  | _ => []

/-- Changes the statement at the end of a way; a way that leads nowhere changes nothing. -/
def amendAt (f : Statement → Statement) : List Branch → Statement → Statement
  | [], s => f s
  | .rest :: way, misreadBefore text rest => misreadBefore text (amendAt f way rest)
  | .action :: way, ifThen condition action => ifThen condition (amendAt f way action)
  | .action :: way, ifThenElse condition action alternative =>
    ifThenElse condition (amendAt f way action) alternative
  | .alternative :: way, ifThenElse condition action alternative =>
    ifThenElse condition action (amendAt f way alternative)
  | _, s => s

/-- Gives a function definition its value; other statements have none. -/
def define (closing : Closing) : Statement → Statement
  | defFn d => defFn { d with definition := some closing }
  | s => s

end Statement

end SavedBasic
