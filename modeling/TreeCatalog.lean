import TreeCatalog.Size.Format
import TreeCatalog.Text.Printable
import TreeCatalog.Text.LowerCase
import TreeCatalog.Text.Blank
import TreeCatalog.Text.Utf8
import TreeCatalog.Text.Quoted
import TreeCatalog.Path
import TreeCatalog.Markup.Entities
import TreeCatalog.Markup.Escape
import TreeCatalog.Markup.Unescape
import TreeCatalog.Entry.Basic
import TreeCatalog.Render.Outline
import TreeCatalog.Render.Page
import TreeCatalog.Json.Syntax
import TreeCatalog.Json.Value
import TreeCatalog.Json.Read
import TreeCatalog.Document.Decode
import TreeCatalog.Document.Encode
import TreeCatalog.Disk.OsPath
import TreeCatalog.Disk.Basic
import TreeCatalog.Disk.Write
import TreeCatalog.Fault
import TreeCatalog.Clock
import TreeCatalog.Walk
import TreeCatalog.Store.Documents
import TreeCatalog.Search
import TreeCatalog.Search.Parallel
import TreeCatalog.Store.Create
import TreeCatalog.Text.Base64
import TreeCatalog.Guard
import TreeCatalog.Text.Decimal
import TreeCatalog.Settings.Dotenv
import TreeCatalog.Settings.Config
import TreeCatalog.Settings.EnvFile
import TreeCatalog.Cache
import TreeCatalog.Http.Limiter
import TreeCatalog.Digest.Sha256
import TreeCatalog.Digest.Hmac
import TreeCatalog.Json.Fold
import TreeCatalog.Json.Number
import TreeCatalog.Json.Path
import TreeCatalog.Token.Claims
import TreeCatalog.Token.Signed
import TreeCatalog.Token.Auth
import TreeCatalog.Json.Stream
import TreeCatalog.Http.Message
import TreeCatalog.Http.Target
import TreeCatalog.Http.Address
import TreeCatalog.Wire
import TreeCatalog.Http.Server
import TreeCatalog.Command.Flags
import TreeCatalog.Command.Tree
import TreeCatalog.Command.Help
import TreeCatalog.Command.Find
import TreeCatalog.Command.Run
import TreeCatalog.Main
import TreeCatalog.Proofs.Entry.Tree
import TreeCatalog.Proofs.Walk.Children
import TreeCatalog.Proofs.Walk.Sizes
import TreeCatalog.Proofs.Walk.Pruning
import TreeCatalog.Proofs.Text.Utf8
import TreeCatalog.Proofs.Text.Trim
import TreeCatalog.Proofs.Json.Escapes
import TreeCatalog.Proofs.Json.Numbers
import TreeCatalog.Proofs.Json.Compact
import TreeCatalog.Proofs.Json.Grammar
import TreeCatalog.Proofs.Json.Recognise
import TreeCatalog.Proofs.Document.RoundTrip
import TreeCatalog.Proofs.Document.Shapes
import TreeCatalog.Proofs.Document.Accepted
import TreeCatalog.Proofs.Text.Split
import TreeCatalog.Proofs.Path.Rooted
import TreeCatalog.Proofs.Search.Schedules
import TreeCatalog.Proofs.Search.Matches
import TreeCatalog.Proofs.Render.Listing
import TreeCatalog.Proofs.Walk.Accounting
import TreeCatalog.Proofs.Walk.Names
import TreeCatalog.Proofs.Guard.Containment
import TreeCatalog.Proofs.Disk.Tree
import TreeCatalog.Proofs.Disk.Walks
import TreeCatalog.Proofs.Disk.Writes
import TreeCatalog.Proofs.Render.Title
import TreeCatalog.Proofs.Render.Console
import TreeCatalog.Proofs.Search.Caseless
import TreeCatalog.Proofs.Settings.PlainEnv
import TreeCatalog.Proofs.Settings.EnvUpdate
import TreeCatalog.Proofs.Store.Created
import TreeCatalog.Proofs.Store.Failed
import TreeCatalog.Proofs.Store.Waiting
import TreeCatalog.Proofs.Store.Confined
import TreeCatalog.Proofs.Keyed
import TreeCatalog.Proofs.Http.Window
import TreeCatalog.Proofs.Cache.Live
import TreeCatalog.Proofs.Http.Access
import TreeCatalog.Proofs.Path.RootNames
import TreeCatalog.Proofs.Search.Segments
