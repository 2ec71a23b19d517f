import RowGraph.Error.Basic
import RowGraph.Row

/-!
Executors: what runs statements.

An executor is given by what it does to its connection, of which nothing else is known.  Each of its
actions answers and leaves a connection, also when it fails.
-/

namespace RowGraph

structure Executor (σ : Type) where
  connect : σ → Outcome Unit × σ
  /-- Run one statement with the values of its placeholders.  The answer is its rows. -/
  execute : σ → String → List Scalar → Outcome (List Row) × σ
  disconnect : σ → Outcome Unit × σ

/-! ## A scripted executor -/

inductive Request where
  | connect
  | statement (sql : String) (params : List Scalar)
  | disconnect

/-- The connection of a scripted executor: the answers it has left and what it was asked. -/
structure Script where
  responses : List (Outcome (List Row))
  log : List Request

namespace Script

def ofResponses (responses : List (Outcome (List Row))) : Script := ⟨responses, []⟩

/-- The next answer; no rows when there is none left. -/
def respond (s : Script) (sql : String) (params : List Scalar) : Outcome (List Row) × Script :=
  let log := s.log ++ [.statement sql params]
  match s.responses with
  | [] => (.ok [], ⟨[], log⟩)
  | response :: rest => (response, ⟨rest, log⟩)

end Script

/-- An executor that answers from a script and keeps a log. -/
def Executor.scripted (opening closing : Outcome Unit) : Executor Script where
  connect s := (opening, { s with log := s.log ++ [.connect] })
  execute := Script.respond
  disconnect s := (closing, { s with log := s.log ++ [.disconnect] })

/-- A scripted executor that has no connection to open or close. -/
def Executor.bare : Executor Script where
  connect s := (.ok (), s)
  execute := Script.respond
  disconnect s := (.ok (), s)

end RowGraph
