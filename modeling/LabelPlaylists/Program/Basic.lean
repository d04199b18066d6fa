import LabelPlaylists.Account.Session
import LabelPlaylists.Library.Store
import LabelPlaylists.Log.Record
import LabelPlaylists.Program.Failure
import LabelPlaylists.Settings.Load

/-!
Programs that ask their surroundings, one request at a time, and go on with the reply. What
a request does is left to whoever runs the program.
-/

namespace LabelPlaylists

inductive Request where
  | library (c : Library.Command)
  | call (token : String) (c : Spotify.Call)
  | grant (g : Spotify.Grant.Form)
  -- The time in UTC, if the calendar reaches that far.
  | now
  | log (r : Log.Record)
  | session
  | setSession (s : Session)
  | print (s : String)
  | complain (s : String)
  | prompt (s : String)
  -- A text that nobody can guess.
  | secret
  | source (path : String)
  -- The settings, from a file that is asked for or from the usual one.
  | settings (path : Option String)
  | useSettings (s : Settings)
  | openLog (directory : Path) (verbose : Bool)
  | closeLog
  -- Opens a library file, in a directory that is made if need be.
  | openLibrary (path : Path)
  | closeLibrary

namespace Request

abbrev Reply : Request → Type
  | library c => Except Library.Failure c.Reply
  | call .. => Except Spotify.Trouble Json
  | grant _ => Except String Spotify.Grant.Answer
  | now => Option Moment
  | log _ => Unit
  | session => Option Session
  | setSession _ => Unit
  | print _ | complain _ => Unit
  | prompt _ => Option String
  | secret => String
  | source _ => Settings.Source
  | settings _ => Except Settings.Problem Settings
  | useSettings _ => Unit
  | openLog .. => Except DirectoryFault Unit
  | closeLog => Unit
  | openLibrary _ => Except Failure Unit
  | closeLibrary => Unit

end Request

inductive Program (α : Type) where
  | done (a : α)
  | fail (e : Failure)
  | ask (r : Request) (next : r.Reply → Program α)

namespace Program

def bind (t : Program α) (f : α → Program β) : Program β :=
  match t with
  | done a => f a
  | fail e => fail e
  | ask r next => ask r fun reply => (next reply).bind f

instance : Monad Program where
  pure := done
  bind := bind

-- What a program comes to, as a result that never fails.
def outcome : Program α → Program (Except Failure α)
  | done a => done (.ok a)
  | fail e => done (.error e)
  | ask r next => ask r fun reply => (next reply).outcome

def ofExcept : Except Failure α → Program α
  | .ok a => done a
  | .error e => fail e

def library (c : Library.Command) : Program c.Reply :=
  ask (.library c) fun
    | .ok a => done a
    | .error e => fail (.library e)

def now : Program Moment :=
  ask .now fun
    | some m => done m
    | none => fail .timeOutOfRange

def session : Program Session :=
  ask .session fun
    | some s => done s
    | none => fail .noSession

def setSession (s : Session) : Program Unit := ask (.setSession s) done

def print (s : String) : Program Unit := ask (.print s) done

def complain (s : String) : Program Unit := ask (.complain s) done

def log (level : Log.Level) (logger message : String) : Program Unit :=
  ask (.log { level, logger, message }) done

def run (answer : (r : Request) → σ → r.Reply × σ) : Program α → σ → Except Failure α × σ
  | done a, s => (.ok a, s)
  | fail e, s => (.error e, s)
  | ask r next, s => (next (answer r s).1).run answer (answer r s).2

@[simp]
theorem done_bind (a : α) (f : α → Program β) : (done a).bind f = f a := rfl

@[simp]
theorem fail_bind (e : Failure) (f : α → Program β) : (fail e).bind f = fail e := rfl

theorem bind_done (t : Program α) : t.bind done = t := by
  induction t with
  | done a => rfl
  | fail e => rfl
  | ask r next ih => simp [bind, ih]

theorem bind_assoc (t : Program α) (f : α → Program β) (g : β → Program γ) :
    (t.bind f).bind g = t.bind fun a => (f a).bind g := by
  induction t with
  | done a => rfl
  | fail e => rfl
  | ask r next ih => simp [bind, ih]

theorem run_bind (answer : (r : Request) → σ → r.Reply × σ) (t : Program α) (f : α → Program β) (s : σ) :
    (t.bind f).run answer s =
      match t.run answer s with
      | (.ok a, s) => (f a).run answer s
      | (.error e, s) => (.error e, s) := by
  induction t generalizing s with
  | done a => rfl
  | fail e => rfl
  | ask r next ih => exact ih _ _

theorem run_outcome (answer : (r : Request) → σ → r.Reply × σ) (t : Program α) (s : σ) :
    t.outcome.run answer s = (.ok (t.run answer s).1, (t.run answer s).2) := by
  induction t generalizing s with
  | done a => rfl
  | fail e => rfl
  | ask r next ih => exact ih _ _

end Program

end LabelPlaylists
