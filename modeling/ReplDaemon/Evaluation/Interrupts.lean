/-!
# Interrupts

Code that cannot look for a cancellation by itself, because it waits for something else, leaves a hook
that is run when the cancellation comes. Hooks are run once, in the order in which they were left; a
hook that comes too late to wait is run at once. The main statements say which hooks a request or a
cancellation runs.
-/

namespace ReplDaemon

/-- Whether cancellation has been requested, and the hooks that wait for it. -/
structure Interrupts (Hook : Type) where
  requested : Bool
  waiting : List Hook
  deriving Repr, DecidableEq

namespace Interrupts

variable {Hook : Type}

/-- No request and no hooks. -/
def start : Interrupts Hook where
  requested := false
  waiting := []

/-- Leaves a hook. The answer is what has to be run now: the hook itself if cancellation has been
requested before. -/
def register (i : Interrupts Hook) (hook : Hook) : List Hook × Interrupts Hook :=
  if i.requested then ([hook], i) else ([], { i with waiting := i.waiting ++ [hook] })

/-- Requests cancellation without running a hook. -/
def request (i : Interrupts Hook) : Interrupts Hook :=
  { i with requested := true }

/-- Requests cancellation. The answer is what has to be run now: all the hooks that waited. -/
def cancel (i : Interrupts Hook) : List Hook × Interrupts Hook :=
  (i.waiting, { requested := true, waiting := [] })

/-- A hook left after a request is run at once, and nothing else is. -/
theorem register_request (i : Interrupts Hook) (hook : Hook) :
    (i.request.register hook).1 = [hook] := by
  simp [register, request]

/-- A hook left before the request is run by the cancellation, behind those that waited already. -/
theorem cancel_register {i : Interrupts Hook} (hook : Hook) (h : i.requested = false) :
    (i.register hook).2.cancel.1 = i.waiting ++ [hook] := by
  simp [register, cancel, h]

/-- A second cancellation runs nothing. -/
theorem cancel_cancel (i : Interrupts Hook) : i.cancel.2.cancel.1 = [] := rfl

end Interrupts

end ReplDaemon
