import CodeDeck.Fault
import CodeDeck.Http.Exchange

/-!
Work that talks to a service. It leaves a journal of the requests sent and of the lines logged, which
remains when the work fails.
-/

namespace CodeDeck

structure Journal where
  requests : List Http.Request := []
  log : List String := []

abbrev Work := ExceptT Fault (StateM Journal)

namespace Work

def info (line : String) : Work Unit :=
  modify fun j => { j with log := j.log ++ ["INFO: " ++ line] }

def warn (line : String) : Work Unit :=
  modify fun j => { j with log := j.log ++ ["WARNING: " ++ line] }

def sent (r : Http.Request) : Work Unit :=
  modify fun j => { j with requests := j.requests ++ [r] }

def ofExcept {α : Type} (r : Except Fault α) : Work α := ExceptT.mk (pure r)

def perform {α : Type} (work : Work α) (j : Journal) : Except Fault α × Journal := work.run.run j

end Work

end CodeDeck
