import LabelPlaylists.Account.Login
import LabelPlaylists.CommandLine.Labels
import LabelPlaylists.Favorites.Pull
import LabelPlaylists.Playlist.Push

/-!
Running a command line. A command gets the settings, a log, the library and a user to work for. Failures
of the library and of Spotify are told and logged and give an exit code of their own; a command line
that is refused, and the end of input at a question, break the command off. Log and library are closed in
any case.
-/

namespace LabelPlaylists.CommandLine

def logger : String := "playlist_gen.cli"

-- The session of the chosen user, or of the only one.
def chosenSession (user : Option String) : Program Session := do
  let row ← match user with
    | some id => do
      match ← Program.library (.userNamed (.text id)) with
      | some u => Program.done u
      | none => .fail (.unknownUser id)
    | none => do
      match ← Program.library .users with
      | [] => .fail .nobody
      | [u] => .done u
      | us => .fail (.severalUsers (us.map (·.spotifyId)))
  match Session.ofUser? row with
  | some s => return s
  | none => .fail .badExpiry

def forUser (user : Option String) (work : Program Unit) : Program Unit := do
  Program.setSession (← chosenSession user)
  work

def login (s : Settings) : Program Unit := do
  let state ← .ask .secret .done
  Program.print "Open this URL in your browser and approve access:\n"
  Program.print (Authorization.url s.clientId s.redirectUri state)
  Program.print "\nThen paste the URL you were redirected to (or just its code)."
  match ← .ask (.prompt "Redirect URL") .done with
  | none => .fail .endOfInput
  | some pasted =>
    match Authorization.code pasted state with
    | .error r => .fail (.noCode r)
    | .ok code =>
      let session ← Account.login code s.redirectUri
      Program.print ("Logged in as " ++ session.spotifyId)

-- The number of pages after which a pull gives up.
def mostPages : Nat := 1000000

def pull (s : Settings) : Program Unit := do
  let found ← Favorites.pull mostPages s.maxWorkers
  Program.print (toString found.tracks ++ " new tracks, " ++ toString found.albums ++ " albums, "
    ++ toString found.artists ++ " artists")

def push (s : Settings) : Program Unit := do
  let done ← Playlist.push s.maxWorkers
  Program.print (toString done.synced ++ " playlists pushed (" ++ toString done.created ++ " new, "
    ++ toString done.tracks ++ " tracks)")
  if !done.failures.isEmpty then
    Program.complain ("Pushed as empty because their criteria failed: "
      ++ ", ".intercalate done.failures)

/-! ## Surroundings of a command -/

def report (f : Failure) : Program (Except Failure Int) :=
  match f with
  | .interrupted => do
    Program.complain "\nInterrupted by user"
    Program.log .info logger "Interrupted by user"
    return .ok 130
  | f =>
    match f.ending? with
    | none => .done (.error f)
    | some e => do
      let message := e.heading ++ ": " ++ f.message
      Program.complain message
      if f.mayNeedLogin then
        Program.complain "Run 'playlist-gen login' again, or check client_id/client_secret"
      if e.isLogged then Program.log .error logger message
      return .ok e.exitCode

def openLibrary (s : Settings) : Program Unit :=
  .ask (.openLibrary s.library) .ofExcept

def withSettings (verbose : Bool) (work : Settings → Program Unit) (s : Settings) : Program Int := do
  .ask (.useSettings s) .done
  match ← .ask (.openLog s.logs verbose) .done with
  | .error f => .fail (.directory f)
  | .ok () =>
    let result ← Program.outcome do
      Program.log .debug logger
        ("playlist-gen " ++ version ++ ", database " ++ s.library.text)
      openLibrary s
      work s
    let ended ← match result with
      | .ok () => Program.done (.ok 0)
      | .error f => report f
    .ask .closeLibrary .done
    .ask .closeLog .done
    .ofExcept ended

def application (g : Globals) (work : Settings → Program Unit) : Program Int := do
  match ← .ask (.settings g.config) .done with
  | .ok s => withSettings g.verbose work s
  | .error p => .ofExcept (← report (.settings p))

def requireFile (path : String) : Program Unit := do
  let refuse (reason : String) : Program Unit := .fail <| .usage <| .badValue "'--config'" <|
    "File " ++ Text.quoted path ++ " " ++ reason
  if path.toList.contains '\x00' then .fail (.settings (.badPath .nullCharacter))
  match ← .ask (.source path) .done with
  | .nothing => refuse "does not exist."
  | .directory => refuse "is a directory."
  | .file _ => return ()

-- Runs a command. Criteria to be stored are looked at before anything else.
def runCommand (g : Globals) (c : Command) : Program Int :=
  let work (w : Settings → Program Unit) : Program Int :=
    application g fun s => forUser g.user (w s)
  match c with
  | .login => application g login
  | .pull => work pull
  | .push => work push
  | .tracks criteria limit page => work fun _ => listTracks criteria limit page
  | .validate criteria => validate criteria
  | .listLabels => work fun _ => listLabels
  | .createLabel name criteria => do
    if let some text := criteria then requireValid text
    work fun _ => createLabel name criteria
  | .setCriteria name criteria => do
    if let some text := criteria then requireValid text
    work fun _ => setCriteria name criteria
  | .addTracks name ids => work fun _ => addTracks name ids
  | .removeTracks name ids => work fun _ => removeTracks name ids
  | .message text => do
    Program.print text
    return 0
  | .unknown config u => do
    if let some path := config then requireFile path
    .fail (.usage u)

def ofUsage : Except Usage α → Program α
  | .ok a => .done a
  | .error u => .fail (.usage u)

def run (words : List String) : Program Int := do
  let (g, rest) ← ofUsage (globals words)
  match g.shows with
  | some s =>
    Program.print s
    return 0
  | none =>
    if let some path := g.config then requireFile path
    runCommand g (← ofUsage (Command.ofWords rest))

-- What is said of a failure that breaks a command off, and its exit code.
def farewell : Failure → String × Int
  | .endOfInput => ("Aborted!", 1)
  | .usage u => ("Error: " ++ u.message, 2)
  | f => ("Error: " ++ f.message, 1)

end LabelPlaylists.CommandLine
