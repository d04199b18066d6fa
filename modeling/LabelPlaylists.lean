import LabelPlaylists.Text.Blank
import LabelPlaylists.Text.Digit
import LabelPlaylists.Text.Fold
import LabelPlaylists.Text.Utf8
import LabelPlaylists.Text.Printable
import LabelPlaylists.Text.Quoted
import LabelPlaylists.Text.Ranges
import LabelPlaylists.Text.Similar
import LabelPlaylists.Text.Word
import LabelPlaylists.Number.Arithmetic
import LabelPlaylists.Number.Binary64
import LabelPlaylists.Number.Power
import LabelPlaylists.Number.Shortest
import LabelPlaylists.Json.Basic
import LabelPlaylists.Json.Writer
import LabelPlaylists.Json.Reader
import LabelPlaylists.Calendar.Day
import LabelPlaylists.Calendar.Iso
import LabelPlaylists.Calendar.Moment
import LabelPlaylists.Calendar.Stored
import LabelPlaylists.Sql.Datum
import LabelPlaylists.Sql.Relation
import LabelPlaylists.Sql.Test
import LabelPlaylists.Sql.Truth
import LabelPlaylists.Criteria.Basic
import LabelPlaylists.Criteria.Condition
import LabelPlaylists.Criteria.Error
import LabelPlaylists.Criteria.Sql
import LabelPlaylists.Criteria.Token
import LabelPlaylists.Criteria.Tree
import LabelPlaylists.Web.Form
import LabelPlaylists.Web.Host
import LabelPlaylists.Web.Url
import LabelPlaylists.Yaml.Base64
import LabelPlaylists.Yaml.Block
import LabelPlaylists.Yaml.Content
import LabelPlaylists.Yaml.Cursor
import LabelPlaylists.Yaml.Fault
import LabelPlaylists.Yaml.Merge
import LabelPlaylists.Yaml.Node
import LabelPlaylists.Yaml.Number
import LabelPlaylists.Yaml.Plain
import LabelPlaylists.Yaml.Quoted
import LabelPlaylists.Yaml.Tag
import LabelPlaylists.Yaml.Token
import LabelPlaylists.Yaml.Value
import LabelPlaylists.Settings.Basic
import LabelPlaylists.Settings.Load
import LabelPlaylists.Settings.Path
import LabelPlaylists.Log.Journal
import LabelPlaylists.Log.Record
import LabelPlaylists.Spotify.Body
import LabelPlaylists.Spotify.Call
import LabelPlaylists.Spotify.Objects
import LabelPlaylists.Spotify.Schema
import LabelPlaylists.Library.Command
import LabelPlaylists.Library.Export
import LabelPlaylists.Library.Fault
import LabelPlaylists.Library.Query
import LabelPlaylists.Library.Row
import LabelPlaylists.Library.Saved
import LabelPlaylists.Library.Statement
import LabelPlaylists.Library.Store
import LabelPlaylists.Library.Tables
import LabelPlaylists.Account.Authorization
import LabelPlaylists.Account.Login
import LabelPlaylists.Account.Service
import LabelPlaylists.Account.Session
import LabelPlaylists.Account.Tokens
import LabelPlaylists.Program.Basic
import LabelPlaylists.Program.Failure
import LabelPlaylists.Program.Parallel
import LabelPlaylists.Favorites.Pull
import LabelPlaylists.Playlist.Pieces
import LabelPlaylists.Playlist.Push
import LabelPlaylists.CommandLine.Arguments
import LabelPlaylists.CommandLine.Invocation
import LabelPlaylists.CommandLine.Labels
import LabelPlaylists.CommandLine.Run
import LabelPlaylists.CommandLine.Usage
import LabelPlaylists.Simulation.Disk
import LabelPlaylists.Simulation.Sample
import LabelPlaylists.Simulation.Service
import LabelPlaylists.Simulation.Terminal
import LabelPlaylists.Simulation.World
import LabelPlaylists.Main
import LabelPlaylists.Proofs.Library.Step
import LabelPlaylists.Proofs.Library.Effect
import LabelPlaylists.Proofs.Library.Integrity
import LabelPlaylists.Proofs.Spotify.Body
import LabelPlaylists.Proofs.Favorites.Recovery
import LabelPlaylists.Proofs.Criteria.Grammar
import LabelPlaylists.Proofs.Text.Octets
import LabelPlaylists.Proofs.Text.Digits
import LabelPlaylists.Proofs.Calendar.Stored
import LabelPlaylists.Proofs.Json.Strings
import LabelPlaylists.Proofs.Library.Plain
import LabelPlaylists.Proofs.Criteria.Meaning
import LabelPlaylists.Proofs.Criteria.Filter
import LabelPlaylists.Proofs.Criteria.Negated
import LabelPlaylists.Proofs.Library.Listing
import LabelPlaylists.Proofs.Library.Search
import LabelPlaylists.Proofs.Account.Agreement
import LabelPlaylists.Proofs.Favorites.Again
import LabelPlaylists.Proofs.Playlist.Materialized
import LabelPlaylists.Proofs.Library.Consistency
import LabelPlaylists.Proofs.Library.Membership
import LabelPlaylists.Proofs.Favorites.Pulled
import LabelPlaylists.Proofs.Playlist.Reported
import LabelPlaylists.Proofs.CommandLine.Lasting
import LabelPlaylists.Proofs.Library.Part
import LabelPlaylists.Proofs.CommandLine.Isolation
import LabelPlaylists.Proofs.Program.Interleaved
import LabelPlaylists.Proofs.Favorites.Together
import LabelPlaylists.Proofs.Favorites.Contest
import LabelPlaylists.Proofs.Favorites.AtOnce
import LabelPlaylists.Proofs.Favorites.SideBySide
import LabelPlaylists.Proofs.Criteria.Scanned
import LabelPlaylists.Proofs.Criteria.Prefix
import LabelPlaylists.Proofs.Criteria.Position
import LabelPlaylists.Proofs.Criteria.Written
import LabelPlaylists.Proofs.Library.Newest
import LabelPlaylists.Proofs.Library.Case
import LabelPlaylists.Proofs.Favorites.Listed
import LabelPlaylists.Proofs.Program.Alike
import LabelPlaylists.Proofs.CommandLine.Frame
import LabelPlaylists.Proofs.CommandLine.Paged
import LabelPlaylists.Proofs.CommandLine.Listing
import LabelPlaylists.Proofs.Criteria.Comparison
import LabelPlaylists.Proofs.Criteria.Spelled
import LabelPlaylists.Proofs.Criteria.Parametric
import LabelPlaylists.Proofs.Playlist.Mirrored
import LabelPlaylists.Proofs.Playlist.Confined
import LabelPlaylists.Proofs.Account.Login
import LabelPlaylists.Proofs.Account.Discipline
import LabelPlaylists.Proofs.CommandLine.Labelled
import LabelPlaylists.Proofs.Playlist.Exact
import LabelPlaylists.Proofs.Account.Authorization
import LabelPlaylists.Proofs.Settings.Faults
import LabelPlaylists.Proofs.Calendar.Written
import LabelPlaylists.Proofs.Criteria.Years
import LabelPlaylists.Proofs.Criteria.Dated
import LabelPlaylists.Proofs.Favorites.Released
import LabelPlaylists.Proofs.Favorites.Summary
import LabelPlaylists.Proofs.Library.Commute
import LabelPlaylists.Proofs.Favorites.Commuting
import LabelPlaylists.Proofs.Library.Genres
import LabelPlaylists.Proofs.Log.Routing
import LabelPlaylists.Proofs.Program.Pool
