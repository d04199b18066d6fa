import LabelPlaylists.CommandLine.Run
import LabelPlaylists.Log.Journal
import LabelPlaylists.Simulation.Disk
import LabelPlaylists.Simulation.Service
import LabelPlaylists.Simulation.Terminal

/-!
A world in which programs run: a clock, files, an open library, the simulated service, a queue of
answers of the token endpoint, and the session in use. All that programs do towards the service and the
log is recorded. A command line opens the library anew, and what it finds open comes back when it ends.
-/

namespace LabelPlaylists.Simulation

structure Application where
  clientId : String
  clientSecret : String
  timeout : Int
deriving Repr

inductive Event where
  | client (token : String) (timeout : Int)
  | call (c : Spotify.Call)
  | grant (g : Spotify.Grant.Form) (a : Application)
  | log (r : Log.Record)
deriving Repr

structure World where
  clock : Moment
  disk : Disk
  base : Path.Base
  environment : Settings.Environment := []
  application : Application
  library : Library.Store
  -- The library that was open before a command line.
  former : Option Library.Store := none
  service : Service := {}
  -- Answers of the token endpoint, or the text of why it could not be reached.
  grants : List (Except String Spotify.Grant.Answer) := []
  session : Option Session := none
  searchFailure : Option String := none
  secret : String := ""
  terminal : Terminal := {}
  journal : Option Log.Journal := none
  logs : Option Path := none
  -- The last event first.
  events : List Event := []

namespace World

def record (w : World) (e : Event) : World := { w with events := e :: w.events }

def performed (w : World) (c : Library.Command) : Except Library.Failure c.Reply × World :=
  match w.searchFailure, c with
  | some reason, .find .. => (.error (.outOfOrder reason), w)
  | _, c =>
    let (reply, library) := w.library.perform w.clock c
    (reply, { w with library, disk := w.disk.save library })

-- Closes the library and opens one at a path; if that fails, the old one stays in use.
def reopen (path : String) (w : World) : Except Library.OpenFailure Unit × World :=
  match w.disk.openLibrary path with
  | .ok library => (.ok (), { w with library, disk := w.disk.save library })
  | .error e => (.error e, { w with library := w.library.reconnect })

def setVersion (version : Option Int) (w : World) : World :=
  let disk := w.disk.write w.library.path (.library { w.library.saved with version })
  { w with disk, library := disk.refresh w.library }

-- What a written path leads to; homes are not looked for.
def source (path : String) (w : World) : Settings.Source :=
  w.disk.sourceFrom w.base.directory path

-- The settings, from a file that is asked for or from the usual one.
def settings (path : Option String) (w : World) : Except Settings.Problem Settings :=
  let usual := (w.base.directory ++ ["config.yaml"]).text
  Settings.load w.base w.environment (path.getD usual) path.isSome (w.source (path.getD usual))

def openLibrary (p : Path) (w : World) : Except Failure Unit × World :=
  match w.disk.makeDirectory p.parent with
  | .error f => (.error (.directory f), w)
  | .ok disk =>
    match disk.openLibrary p.text with
    | .error f => (.error (.opening f), { w with disk })
    | .ok library =>
      (.ok (), { w with disk := disk.save library, library, former := some w.library })

def closeLibrary (w : World) : World :=
  match w.former with
  | some library => { w with library := w.disk.refresh library, former := none }
  | none => w

def log (r : Log.Record) (w : World) : World :=
  { w.record (.log r) with journal := w.journal.map (·.write r) }

def openLog (directory : Path) (verbose : Bool) (w : World) : Except DirectoryFault Unit × World :=
  match w.disk.makeDirectory directory with
  | .error f => (.error f, w)
  | .ok disk => (.ok (), { w with disk, journal := some { verbose }, logs := some directory })

def reply (r : Request) (w : World) : r.Reply × World :=
  match r with
  | .library c => w.performed c
  | .call token c =>
    let (found, service) := w.service.answer c
    (found, { (w.record (.client token w.application.timeout)).record (.call c) with service })
  | .grant g =>
    let w := w.record (.grant g w.application)
    match w.grants with
    | [] => (.error "no response queued", w)
    | found :: grants => (found, { w with grants })
  | .now => (if w.clock.inUtc.InRange then some w.clock.inUtc else none, w)
  | .log r => ((), w.log r)
  | .session => (w.session, w)
  | .setSession s => ((), { w with session := some s })
  | .print s => ((), { w with terminal := w.terminal.print s })
  | .complain s => ((), { w with terminal := w.terminal.complain s })
  | .prompt s =>
    let (answer, terminal) := w.terminal.prompt s
    (answer, { w with terminal })
  | .secret => (w.secret, w)
  | .source path => (w.source path, w)
  | .settings path => (w.settings path, w)
  | .useSettings s => ((), { w with application := ⟨s.clientId, s.clientSecret, s.requestTimeout⟩ })
  | .openLog directory verbose => w.openLog directory verbose
  | .closeLog => ((), { w with journal := w.journal.map (·.close) })
  | .openLibrary p => w.openLibrary p
  | .closeLibrary => ((), w.closeLibrary)

def run (t : Program α) (w : World) : Except Failure α × World := t.run reply w

-- What a command line leaves behind: its exit code or why it broke off, what it wrote, and its log
-- if it came to have one.
structure Outcome where
  result : Except Failure Int
  terminal : Terminal
  journal : Option Log.Journal
  logs : Option Path

def invoke (words : List String) (input secret : String) (w : World) : Outcome × World :=
  let (result, after) :=
    ({ w with terminal := .ofInput input, secret, journal := none, logs := none } : World).run
      (CommandLine.run words)
  (⟨result, after.terminal, after.journal, after.logs⟩,
    { after with session := w.session, application := w.application, journal := none, logs := none })

end World

end LabelPlaylists.Simulation
