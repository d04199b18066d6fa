import LabelPlaylists.Program.Basic

/-!
Working through items that do not depend on each other. Every item is worked on even if others have
failed; the first failure is reported at the end, the others are only logged.
-/

namespace LabelPlaylists.Program

def outcomes (f : α → Program β) : List α → Program (List (α × Except Failure β))
  | [] => .done []
  | a :: rest => do
    let found ← (f a).outcome
    let others ← outcomes f rest
    return (a, found) :: others

def split : List (α × Except Failure β) → List (α × β) × List (α × Failure)
  | [] => ([], [])
  | (a, .ok b) :: rest => ((a, b) :: (split rest).1, (split rest).2)
  | (a, .error e) :: rest => ((split rest).1, (a, e) :: (split rest).2)

-- Logs the failures that are not reported.
def logFailures (description : String) (shown : α → String) : List (α × Failure) → Program Unit
  | [] => .done ()
  | (a, e) :: rest => do
    log .debug "playlist_gen.utils"
      (description ++ ": additional failure for " ++ shown a ++ ": " ++ e.message)
    logFailures description shown rest

-- Works through all items with a number of workers. No items need no workers.
def inParallel (workers : Int) (description : String) (shown : α → String) (f : α → Program β)
    (items : List α) : Program (List (α × β)) := do
  if items.isEmpty then return []
  if workers < 1 then .fail .noWorkers
  else
    let (results, failures) := split (← outcomes f items)
    match failures with
    | [] => return results
    | (_, first) :: others => do
      logFailures description shown others
      .fail first

end LabelPlaylists.Program
