import LabelPlaylists.Settings.Basic
import LabelPlaylists.Text.Blank
import LabelPlaylists.Text.Utf8
import LabelPlaylists.Yaml.Content

/-!
Loading the settings. A variable of the environment that is not empty overrides its field of the file,
and what neither gives has a default. Without a file, everything has to come from the environment, unless
the file was asked for by its path.
-/

namespace LabelPlaylists.Settings

open Yaml (Value)

inductive Source where
  | nothing
  | directory
  | file (octets : List Nat)
deriving Repr

abbrev Entries := List (Value × Value)

/-! ## Overrides -/

def clientIdField : Field := ⟨"spotify", "client_id"⟩

def clientSecretField : Field := ⟨"spotify", "client_secret"⟩

def redirectUriField : Field := ⟨"spotify", "redirect_uri"⟩

def libraryField : Field := ⟨"database", "path"⟩

def maxWorkersField : Field := ⟨"sync", "max_workers"⟩

def requestTimeoutField : Field := ⟨"sync", "request_timeout"⟩

def logsField : Field := ⟨"logging", "directory"⟩

def overriding : List (String × Field) :=
  [("SPOTIFY_CLIENT_ID", clientIdField), ("SPOTIFY_CLIENT_SECRET", clientSecretField),
    ("SPOTIFY_REDIRECT_URI", redirectUriField), ("PLAYLIST_GEN_DATABASE", libraryField)]

abbrev Environment := List (String × String)

-- Sets a field. A section that is no mapping is replaced by one.
def setField (entries : Entries) (f : Field) (s : String) : Entries :=
  match Value.get? entries f.sectionName with
  | some (.mapping fields) =>
    Value.setEntry entries (.text f.sectionName)
      (.mapping (Value.setEntry fields (.text f.name) (.text s)))
  | some .enclosing => Value.setEntry entries (.text f.name) (.text s)
  | _ => Value.setEntry entries (.text f.sectionName) (.mapping [(.text f.name, .text s)])

def overridden (e : Environment) (entries : Entries) : Entries :=
  overriding.foldl (fun entries (name, f) =>
    match e.lookup name with
    | some s => if s = "" then entries else setField entries f s
    | none => entries) entries

/-! ## Fields -/

-- The fields of a section; one that is left out or null has none.
def fieldsOf (entries : Entries) (name : String) : Except Problem Entries :=
  match Value.get? entries name with
  | none | some .null => .ok []
  | some (.mapping fields) => .ok fields
  | some .enclosing => .ok entries
  | some _ => .error (.badSection name)

-- A text that is not blank, without the blanks around it.
def text (fields : Entries) (f : Field) : Except Problem String :=
  match Value.get? fields f.name with
  | some (.text s) => if Text.trimmed s = "" then .error (.badText f) else .ok (Text.trimmed s)
  | _ => .error (.badText f)

def textOr (fields : Entries) (f : Field) (default : String) : Except Problem String :=
  match Value.get? fields f.name with
  | none | some .null => .ok default
  | some _ => text fields f

def positiveOr (fields : Entries) (f : Field) (default : Int) : Except Problem Int :=
  match Value.get? fields f.name with
  | none | some .null => .ok default
  | some (.whole n) => if 1 ≤ n then .ok n else .error (.badNumber f (.whole n))
  | some v => .error (.badNumber f v)

def pathOr (base : Path.Base) (fields : Entries) (f : Field) (default : String) :
    Except Problem Path := do
  match Path.ofText base (← textOr fields f default) with
  | .ok p => .ok p
  | .error fault => .error (.badPath fault)

def defaultRedirectUri : String := "http://127.0.0.1:8888/callback"

def defaultLibrary : String := "~/.playlist-gen/playlist_gen.db"

def defaultLogs : String := "~/.playlist-gen/logs"

def ofEntries (base : Path.Base) (entries : Entries) : Except Problem Settings := do
  let spotify ← fieldsOf entries "spotify"
  let clientId ← text spotify clientIdField
  let clientSecret ← text spotify clientSecretField
  let redirectUri ← textOr spotify redirectUriField defaultRedirectUri
  let library ← pathOr base (← fieldsOf entries "database") libraryField defaultLibrary
  let sync ← fieldsOf entries "sync"
  let maxWorkers ← positiveOr sync maxWorkersField 4
  let requestTimeout ← positiveOr sync requestTimeoutField 10
  let logs ← pathOr base (← fieldsOf entries "logging") logsField defaultLogs
  .ok { clientId, clientSecret, redirectUri, library, maxWorkers, requestTimeout, logs }

/-! ## The file -/

def allFields : List Field :=
  [clientIdField, clientSecretField, redirectUriField, libraryField, maxWorkersField,
    requestTimeoutField, logsField]

def fieldEntries (c : Yaml.Content) (entries : List (Value × Nat)) : Entries :=
  entries.filterMap fun
    | (.text name, n) =>
      if allFields.any (·.name = name) then some (.text name, c.value n) else none
    | _ => none

-- A section with its fields. A document can be a section of its own.
def sectionValue (c : Yaml.Content) (n : Nat) : Value :=
  if n = c.root then .enclosing
  else
    match c.thing n with
    | .mapping entries => .mapping (fieldEntries c entries)
    | .scalar v => v
    | _ => .sequence []

def knownEntries (c : Yaml.Content) (entries : List (Value × Nat)) : Entries :=
  fieldEntries c entries ++ entries.filterMap fun
    | (.text name, n) =>
      if allFields.any (·.sectionName = name) then some (.text name, sectionValue c n) else none
    | _ => none

-- The entries of a configuration text as far as they are known; an empty one has none.
def entriesOf (path : String) (octets : List Nat) : Except Problem Entries :=
  match Text.Utf8.strict? 0 octets with
  | none => .error .notText
  | some s =>
    match Yaml.Content.ofText (String.ofList s) with
    | .error f => .error (.yaml path f)
    | .ok c =>
      match c.thing c.root with
      | .scalar .null => .ok []
      | .mapping entries => .ok (knownEntries c entries)
      | _ => .error (.notAMapping path)

def entries (path : String) (isAskedFor : Bool) : Source → Except Problem Entries
  | .nothing => if isAskedFor then .error (.noFile path) else .ok []
  | .directory => .error (.isDirectory path)
  | .file octets => entriesOf path octets

-- Loads the settings from what is found at a path, and the environment.
def load (base : Path.Base) (environment : Environment) (path : String) (isAskedFor : Bool)
    (found : Source) : Except Problem Settings := do
  let entries ← entries path isAskedFor found
  ofEntries base (overridden environment entries)

end LabelPlaylists.Settings
