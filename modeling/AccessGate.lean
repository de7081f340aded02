import AccessGate.Number.Decimal
import AccessGate.Text.Blank
import AccessGate.Text.Digit
import AccessGate.Text.LowerCase
import AccessGate.Text.Printable
import AccessGate.Value.Display
import AccessGate.Json.Writer
import AccessGate.Json.Reader
import AccessGate.Digest.Sha1
import AccessGate.Digest.Hmac
import AccessGate.Error.Fault
import AccessGate.Claim.Normal
import AccessGate.Policy.Matcher
import AccessGate.Policy.Access
import AccessGate.Setting.Duration
import AccessGate.Setting.Environment
import AccessGate.Propagation
import AccessGate.Request.Token
import AccessGate.Token.Signed
import AccessGate.Signer.Response
import AccessGate.Yaml.Document
import AccessGate.Setting.Gate
import AccessGate.Demo.Pieces
import AccessGate.Main
import AccessGate.Proofs.Claim.Paths
import AccessGate.Proofs.Policy.Decision
import AccessGate.Proofs.Last
import AccessGate.Proofs.Value.Updates
import AccessGate.Proofs.Response.Calls
import AccessGate.Proofs.Response.AllOrNothing
import AccessGate.Proofs.Response.Signed
import AccessGate.Proofs.Response.Naming
import AccessGate.Proofs.Propagation.Rules
import AccessGate.Proofs.Propagation.Headers
import AccessGate.Proofs.Policy.Agreement
import AccessGate.Proofs.Token.Segments
import AccessGate.Proofs.Token.Expectation
import AccessGate.Proofs.Token.Acceptance
import AccessGate.Proofs.Json.Numeral
import AccessGate.Proofs.Json.Quoted
import AccessGate.Proofs.Json.RoundTrip
import AccessGate.Proofs.Token.RoundTrip
import AccessGate.Proofs.Token.Answered
import AccessGate.Proofs.Validator.Settings
import AccessGate.Proofs.Validator.KeySets
import AccessGate.Proofs.Policy.Parsed
import AccessGate.Proofs.Policy.Askable
import AccessGate.Proofs.Policy.Reloaded
import AccessGate.Proofs.Value.Equality
import AccessGate.Proofs.Number.Exact
import AccessGate.Proofs.Setting.Duration
import AccessGate.Proofs.Setting.RoundTrip
import AccessGate.Proofs.Claim.Resolution
import AccessGate.Proofs.Value.Sorted
import AccessGate.Proofs.Value.Reordering
import AccessGate.Proofs.Json.Canonical
import AccessGate.Proofs.Text.Safe
import AccessGate.Proofs.Claim.Safe
import AccessGate.Proofs.Number.Nearest
import AccessGate.Proofs.Number.Places
import AccessGate.Proofs.Claim.Doubles
import AccessGate.Proofs.Number.Numeral
import AccessGate.Proofs.Setting.References
import AccessGate.Proofs.Setting.Settled
import AccessGate.Proofs.Json.Doubles
import AccessGate.Proofs.Json.Readable
import AccessGate.Proofs.Token.Header
import AccessGate.Proofs.Number.Shortest
import AccessGate.Proofs.Validator.SecretSets
import AccessGate.Proofs.Validator.KeyFiles
import AccessGate.Proofs.Text.Case
import AccessGate.Proofs.Request.Cookies
import AccessGate.Proofs.Request.Token
import AccessGate.Proofs.Setting.Written
import AccessGate.Proofs.Setting.Limits
import AccessGate.Proofs.Policy.Keyless
import AccessGate.Proofs.Text.Trimmed
import AccessGate.Proofs.Setting.Items
import AccessGate.Proofs.Claim.Sequence
