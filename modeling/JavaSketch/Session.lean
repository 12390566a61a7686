import JavaSketch.Store

/-!
# Sessions

A session is what a run can change: the files it sees and what it has told the
user.  An action changes the session and either gives a value or fails; what it
changed before it failed stays changed.
-/

namespace JavaSketch

/-- Something the user is told. -/
inductive Notice
  /-- A message of one or more lines. -/
  | message (text : String)
  /-- A message followed by how long something took. -/
  | timing (text : String)
  deriving DecidableEq, Repr

namespace Notice

/-- Milliseconds as seconds with three places. -/
def secondsText (milliseconds : Nat) : String :=
  let fraction := toString (milliseconds % 1000)
  toString (milliseconds / 1000) ++ "."
    ++ String.ofList (List.replicate (3 - fraction.length) '0') ++ fraction ++ "s"

/-- The text of a notice, if what it times took some milliseconds. -/
def render (milliseconds : Nat) : Notice → String
  | message text => text
  | timing text => text ++ secondsText milliseconds

end Notice

/-- The files a run sees and what it has told the user. -/
structure Session where
  /-- The directories and files. -/
  store : Store
  /-- What the user was told, in order. -/
  notices : List Notice
  /-- Whether the user is told more than warnings. -/
  verbose : Bool

/-- Something that changes a session and can fail. -/
abbrev Action (α : Type) := ExceptT Failure (StateM Session) α

namespace Action

/-- An action by what it makes of a session. -/
def ofRun {α : Type} (run : Session → Except Failure α × Session) : Action α :=
  run

/-- What an action makes of a session. -/
def run {α : Type} (action : Action α) (session : Session) : Except Failure α × Session :=
  ExceptT.run action session

/-- Tells the user something in any case. -/
def warn (text : String) : Action Unit :=
  ofRun fun session =>
    (.ok (), { session with notices := session.notices ++ [.message text] })

/-- Tells the user something unless only warnings are wanted. -/
def tell (notice : Notice) : Action Unit :=
  ofRun fun session =>
    (.ok (), if session.verbose then
      { session with notices := session.notices ++ [notice] } else session)

/-- The files as they are. -/
def store : Action Store :=
  ofRun fun session => (.ok session.store, session)

/-- Fails unless a value was obtained. -/
def ofExcept {α : Type} (value : Except Failure α) : Action α :=
  ofRun fun session => (value, session)

/-- Changes the files unless that fails. -/
def updateStore (change : Store → Except Failure Store) : Action Unit :=
  ofRun fun session =>
    match change session.store with
    | .ok store => (.ok (), { session with store := store })
    | .error failure => (.error failure, session)

end Action

end JavaSketch
