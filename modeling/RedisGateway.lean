import RedisGateway.Address
import RedisGateway.Codec
import RedisGateway.Command.Registry
import RedisGateway.Command.Signature
import RedisGateway.Command.Table
import RedisGateway.ConnectionOptions
import RedisGateway.Connector
import RedisGateway.Demo.BasicConnection
import RedisGateway.Demo.Console
import RedisGateway.Demo.PoolUsage
import RedisGateway.Demo.Stage
import RedisGateway.Duration
import RedisGateway.Facade
import RedisGateway.Failure
import RedisGateway.Fault
import RedisGateway.Manager
import RedisGateway.Members
import RedisGateway.Notice
import RedisGateway.Number.Binary64
import RedisGateway.Number.Reading
import RedisGateway.Number.Shortest
import RedisGateway.Options
import RedisGateway.Pool.Alone
import RedisGateway.Pool.Core
import RedisGateway.Pool.Limits
import RedisGateway.Pool.Phase
import RedisGateway.Pool.Rehearsal
import RedisGateway.Pool.System
import RedisGateway.Remote
import RedisGateway.Session
import RedisGateway.Settings.Assignment
import RedisGateway.Settings.Coercion
import RedisGateway.Settings.Document
import RedisGateway.Settings.Environment
import RedisGateway.Settings.Field
import RedisGateway.Settings.Json
import RedisGateway.Settings.Model
import RedisGateway.Settings.Resolve
import RedisGateway.Text.Blank
import RedisGateway.Text.Case
import RedisGateway.Text.Letter
import RedisGateway.Text.Numeral
import RedisGateway.Text.Pattern
import RedisGateway.Text.Point
import RedisGateway.Text.Printable
import RedisGateway.Text.Quoted
import RedisGateway.Text.Split
import RedisGateway.Topology
import RedisGateway.Transport
import RedisGateway.Value
import RedisGateway.Yaml.Atom
import RedisGateway.Yaml.Cursor
import RedisGateway.Yaml.Document
import RedisGateway.Yaml.Merge
import RedisGateway.Yaml.Moment
import RedisGateway.Yaml.Node
import RedisGateway.Yaml.Scalar
import RedisGateway.Yaml.Tag
import RedisGateway.Yaml.Token
import RedisGateway.Yaml.Writer
import RedisGateway.Proofs.Pool.TrackedSystem
import RedisGateway.Proofs.Pool.Entry
import RedisGateway.Proofs.Pool.Tally
import RedisGateway.Proofs.Pool.Capacity
import RedisGateway.Proofs.Pool.Custody
import RedisGateway.Proofs.Pool.Waking
import RedisGateway.Proofs.Pool.Slots
import RedisGateway.Proofs.Pool.Translation
import RedisGateway.Proofs.Pool.Solo
import RedisGateway.Proofs.Pool.Serving
import RedisGateway.Proofs.Manager.Lending
import RedisGateway.Proofs.Manager.Initialization
import RedisGateway.Proofs.Manager.Release
import RedisGateway.Proofs.Manager.Ledger
import RedisGateway.Proofs.Manager.Renumbering
import RedisGateway.Proofs.Manager.Attempts
import RedisGateway.Proofs.Command.Binding
import RedisGateway.Proofs.Manager.MethodCall
import RedisGateway.Proofs.Manager.ManagerSystem
import RedisGateway.Proofs.Manager.Closing
import RedisGateway.Proofs.Manager.Lifecycle
import RedisGateway.Proofs.Manager.Accounts
import RedisGateway.Proofs.Manager.Loans
import RedisGateway.Proofs.Manager.Teardown
import RedisGateway.Proofs.Transport.Spellings
import RedisGateway.Proofs.Transport.Requests
import RedisGateway.Proofs.Manager.Requests
import RedisGateway.Proofs.Manager.Making
import RedisGateway.Proofs.Manager.Transparency
import RedisGateway.Proofs.Transport.Redaction
import RedisGateway.Proofs.Manager.Construction
import RedisGateway.Proofs.Manager.Redaction
import RedisGateway.Proofs.Manager.Secrecy
import RedisGateway.Proofs.Yaml.Cursor
import RedisGateway.Proofs.Yaml.Quoted
import RedisGateway.Proofs.Yaml.Quoting
import RedisGateway.Proofs.Yaml.Folding
import RedisGateway.Proofs.Yaml.Fetching
import RedisGateway.Proofs.Yaml.Lines
import RedisGateway.Proofs.Yaml.Record
import RedisGateway.Proofs.Yaml.Building
import RedisGateway.Proofs.Yaml.Finding
import RedisGateway.Proofs.Yaml.Reading
import RedisGateway.Proofs.Yaml.Numerals
import RedisGateway.Proofs.Yaml.Writing
import RedisGateway.Proofs.Yaml.Rereading
import RedisGateway.Proofs.Settings.Given
import RedisGateway.Proofs.Settings.Rereading
import RedisGateway.Proofs.Address.Grammar
import RedisGateway.Proofs.Address.RoundTrip
import RedisGateway.Proofs.Address.Reporting
import RedisGateway.Proofs.Manager.Refusals
import RedisGateway.Proofs.Manager.Surfacing
import RedisGateway.Proofs.Transport.Applying
import RedisGateway.Proofs.Pool.Vetting
import RedisGateway.Proofs.Pool.Endings
import RedisGateway.Proofs.Manager.Outcomes
import RedisGateway.Proofs.Transport.Rendering
import RedisGateway.Proofs.Pool.Opening
import RedisGateway.Proofs.Command.Retrieval
import RedisGateway.Proofs.Manager.Executors
import RedisGateway.Proofs.Settings.Leaves
