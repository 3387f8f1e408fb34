import RepoSelect.Binary64.Shortest
import RepoSelect.Cache.File
import RepoSelect.Cache.Location
import RepoSelect.Cache.Record
import RepoSelect.Cache.Status
import RepoSelect.CommandLine.Invocation
import RepoSelect.Config.Load
import RepoSelect.Config.Printer
import RepoSelect.Config.Reader
import RepoSelect.Duration.Text
import RepoSelect.FileTree.Action
import RepoSelect.FileTree.Along
import RepoSelect.FileTree.Basic
import RepoSelect.Filter.Codec
import RepoSelect.Filter.Group
import RepoSelect.Instant.Printer
import RepoSelect.Instant.Reader
import RepoSelect.Json.Decode
import RepoSelect.Json.Printer
import RepoSelect.Label.Listing
import RepoSelect.Label.Tree
import RepoSelect.Log.Printer
import RepoSelect.Log.Rules
import RepoSelect.Main
import RepoSelect.Program
import RepoSelect.Proofs.Binary64.Nearest
import RepoSelect.Proofs.Cache.Draft
import RepoSelect.Proofs.Cache.Expiry
import RepoSelect.Proofs.Cache.Fleets
import RepoSelect.Proofs.Cache.Load
import RepoSelect.Proofs.Cache.Location
import RepoSelect.Proofs.Cache.Outcome
import RepoSelect.Proofs.Cache.Overwrite
import RepoSelect.Proofs.Cache.Ready
import RepoSelect.Proofs.Cache.Record
import RepoSelect.Proofs.Cache.Save
import RepoSelect.Proofs.Cache.Saver
import RepoSelect.Proofs.Cache.Savers
import RepoSelect.Proofs.Cache.Sharing
import RepoSelect.Proofs.Cache.Status
import RepoSelect.Proofs.Config.RoundTrip
import RepoSelect.Proofs.Document.Record
import RepoSelect.Proofs.Duration.Grammar
import RepoSelect.Proofs.Duration.RoundTrip
import RepoSelect.Proofs.FileTree.Change
import RepoSelect.Proofs.FileTree.Follow
import RepoSelect.Proofs.FileTree.Grounded
import RepoSelect.Proofs.Filter.Display
import RepoSelect.Proofs.Filter.Lead
import RepoSelect.Proofs.Filter.Notation
import RepoSelect.Proofs.Filter.Order
import RepoSelect.Proofs.Filter.Reading
import RepoSelect.Proofs.Filter.Selection
import RepoSelect.Proofs.Filter.Strip
import RepoSelect.Proofs.Filter.Unwanted
import RepoSelect.Proofs.Instant.Calendar
import RepoSelect.Proofs.Instant.Elapsed
import RepoSelect.Proofs.Instant.RoundTrip
import RepoSelect.Proofs.Json.RoundTrip
import RepoSelect.Proofs.Label.Build
import RepoSelect.Proofs.Label.Members
import RepoSelect.Proofs.Label.Views
import RepoSelect.Proofs.Path.Join
import RepoSelect.Proofs.Path.Parent
import RepoSelect.Proofs.Repository.Qualified
import RepoSelect.Proofs.Service.Blame
import RepoSelect.Proofs.Service.Calls
import RepoSelect.Proofs.Service.Completion
import RepoSelect.Proofs.Service.Fetch
import RepoSelect.Proofs.Service.Filling
import RepoSelect.Proofs.Service.Flush
import RepoSelect.Proofs.Service.Indifference
import RepoSelect.Proofs.Service.Interleaving
import RepoSelect.Proofs.Service.Keys
import RepoSelect.Proofs.Service.Labels
import RepoSelect.Proofs.Service.Once
import RepoSelect.Proofs.Service.Outcome
import RepoSelect.Proofs.Service.Populate
import RepoSelect.Proofs.Service.Reload
import RepoSelect.Proofs.Service.Run
import RepoSelect.Proofs.Service.Turns
import RepoSelect.Proofs.Suggestion.Edits
import RepoSelect.Proofs.Suggestion.Rows
import RepoSelect.Proofs.Suggestion.Similar
import RepoSelect.Proofs.Text.Lower
import RepoSelect.Proofs.Text.Run
import RepoSelect.Proofs.Text.Trim
import RepoSelect.Proofs.Yaml.Block
import RepoSelect.Proofs.Yaml.Collections
import RepoSelect.Proofs.Yaml.Quoted
import RepoSelect.Proofs.Yaml.Reading
import RepoSelect.Proofs.Yaml.Scalar
import RepoSelect.Proofs.Yaml.Scan
import RepoSelect.Proofs.Yaml.Text
import RepoSelect.Proofs.Yaml.Tree
import RepoSelect.Proofs.Yaml.Unquoted
import RepoSelect.Provider.Inventory
import RepoSelect.Provider.PullRequest
import RepoSelect.Service.Populate
import RepoSelect.Service.Query
import RepoSelect.Suggestion.Advice
import RepoSelect.Text.Quoted
import RepoSelect.Url.Address
import RepoSelect.Url.Authority
import RepoSelect.Url.Punycode
import RepoSelect.Yaml.Decode
import RepoSelect.Yaml.Node.Parser
import RepoSelect.Yaml.Token.Lexer
import RepoSelect.Proofs.Text.Lower
import RepoSelect.Proofs.Duration.Grammar
