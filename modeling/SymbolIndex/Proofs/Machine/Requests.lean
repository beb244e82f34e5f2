import SymbolIndex.Machine.Session

/-!
# The requests that a session makes

What a session asks for, whatever it is answered: whether it makes no other requests than
those of a class, such as the ones that leave the files as they are.
-/

namespace SymbolIndex

namespace Request

/-- Whether a request leaves the files as they are, whatever it is answered. -/
def reads : Request → Bool
  | makeDirectories _ | writeFile _ _ | makeTemporary _ | removeFile _ | rename _ _ => false
  | _ => true

/-- Whether a request leaves everything but reports as it is. -/
def isQuiet : Request → Bool
  | runProgram _ _ _ => false
  | request => request.reads

/-- Whether a request asks for nothing but what can be seen in the files. -/
def looks : Request → Bool
  | readFile _ | kind _ | list _ | walk _ | workingDirectory => true
  | _ => false

theorem reads_of_isQuiet {request : Request} (quiet : request.isQuiet = true) :
    request.reads = true := by
  cases request <;> first | exact quiet | rfl

theorem isQuiet_of_looks {request : Request} (looks : request.looks = true) :
    request.isQuiet = true := by
  cases request <;> first | rfl | cases looks

end Request

namespace Session

variable {α β : Type} {allowed others : Request → Bool}

/-- Whether a session makes only allowed requests, whatever it is answered. -/
def Only (allowed : Request → Bool) : Session α → Prop
  | done _ => True
  | ask request next => allowed request = true ∧ ∀ answer, (next answer).Only allowed

theorem only_pure (value : α) : (pure value : Session α).Only allowed :=
  trivial

theorem only_request {request : Request} (isAllowed : allowed request = true) :
    (Session.request request).Only allowed :=
  ⟨isAllowed, fun _ => trivial⟩

theorem only_bind {session : Session α} {next : α → Session β} (first : session.Only allowed)
    (onwards : ∀ value, (next value).Only allowed) : (session >>= next).Only allowed := by
  induction session with
  | done value => exact onwards value
  | ask request more ih => exact ⟨first.1, fun answer => ih answer (first.2 answer)⟩

theorem Only.mono {session : Session α} (only : session.Only allowed)
    (more : ∀ request, allowed request = true → others request = true) : session.Only others := by
  induction session with
  | done value => trivial
  | ask request next ih => exact ⟨more request only.1, fun answer => ih answer (only.2 answer)⟩

theorem only_readText {path : FilePath} (isAllowed : allowed (.readFile path) = true) :
    (readText path).Only allowed := by
  refine only_bind (only_request isAllowed) fun result => ?_
  cases result with
  | error error => exact only_pure _
  | ok bytes =>
      dsimp only
      split <;> exact only_pure _

theorem only_pathExists {path : FilePath} (isAllowed : allowed (.kind path) = true) :
    (pathExists path).Only allowed :=
  only_bind (only_request isAllowed) fun _ => only_pure _

theorem Only.reads {session : Session α} (quiet : session.Only Request.isQuiet) :
    session.Only Request.reads :=
  quiet.mono fun _ => Request.reads_of_isQuiet

theorem Only.isQuiet {session : Session α} (looks : session.Only Request.looks) :
    session.Only Request.isQuiet :=
  looks.mono fun _ => Request.isQuiet_of_looks

end Session

namespace Attempt

variable {δ ε α β : Type} {allowed others : Request → Bool}

/-- Whether an attempt makes only allowed requests, whatever it is answered. -/
def Only (allowed : Request → Bool) (attempt : Attempt ε α) : Prop :=
  Session.Only allowed attempt.run

theorem only_pure (value : α) : Only allowed (pure value : Attempt ε α) :=
  Session.only_pure _

theorem only_throw (error : ε) : Only allowed (throw error : Attempt ε α) :=
  Session.only_pure _

theorem only_lift {session : Session α} (only : session.Only allowed) :
    Only allowed (liftM session : Attempt ε α) :=
  Session.only_bind only fun _ => Session.only_pure _

theorem only_bind {attempt : Attempt ε α} {next : α → Attempt ε β} (first : Only allowed attempt)
    (onwards : ∀ value, Only allowed (next value)) : Only allowed (attempt >>= next) := by
  refine Session.only_bind first fun result => ?_
  cases result with
  | ok value => exact onwards value
  | error error => exact Session.only_pure _

theorem only_ofSession {session : Session (Except δ α)} (wrap : δ → ε)
    (only : session.Only allowed) : Only allowed (ofSession wrap session) := by
  refine Session.only_bind only fun result => ?_
  cases result <;> exact Session.only_pure _

theorem only_mapError {attempt : Attempt δ α} (wrap : δ → ε) (only : Only allowed attempt) :
    Only allowed (mapError wrap attempt) :=
  only_ofSession wrap only

theorem Only.mono {attempt : Attempt ε α} (only : Only allowed attempt)
    (more : ∀ request, allowed request = true → others request = true) : Only others attempt :=
  Session.Only.mono only more

theorem Only.reads {attempt : Attempt ε α} (quiet : Only Request.isQuiet attempt) :
    Only Request.reads attempt :=
  quiet.mono fun _ => Request.reads_of_isQuiet

theorem Only.isQuiet {attempt : Attempt ε α} (looks : Only Request.looks attempt) :
    Only Request.isQuiet attempt :=
  looks.mono fun _ => Request.isQuiet_of_looks

end Attempt

end SymbolIndex
