import Transcode.Text.Basic
import Transcode.Text.Blank
import Transcode.Text.Case
import Transcode.Binary64.Basic
import Transcode.Binary64.Integer
import Transcode.Decimal.Shortest
import Transcode.Decimal.Notation
import Transcode.Decimal.Reading
import Transcode.Decimal.Numeric
import Transcode.Calendar
import Transcode.Value
import Transcode.Graph
import Transcode.Fault
import Transcode.Coercion
import Transcode.Check
import Transcode.Copy
import Transcode.Charset.Utf8
import Transcode.Charset.SingleByte
import Transcode.Charset.Basic
import Transcode.Charset.Convert
import Transcode.Yaml.Mark
import Transcode.Yaml.Schema
import Transcode.Yaml.Tag
import Transcode.Yaml.Scanner
import Transcode.Yaml.Compose
import Transcode.Yaml.Load
import Transcode.Config.Schema
import Transcode.Config.Merge
import Transcode.Config.Load
import Transcode.Config.Session
import Transcode.PackagePath
import Transcode.Transport
import Transcode.Proofs.Text.CodePoints
import Transcode.Proofs.Charset.LoneSurrogates
import Transcode.Proofs.Charset.Utf8
import Transcode.Proofs.Charset.SingleByte
import Transcode.Proofs.Charset.Report
import Transcode.Proofs.Graph.Basic
import Transcode.Proofs.Config.Step
import Transcode.Proofs.Config.Frame
import Transcode.Proofs.Config.Layer
import Transcode.Proofs.Config.Reading
import Transcode.Proofs.Config.Loading
import Transcode.Proofs.Config.Failures
import Transcode.Proofs.Config.Session
import Transcode.Proofs.Binary64.Value
import Transcode.Proofs.Copy
import Transcode.Proofs.CopyLaws
import Transcode.Proofs.Charset.Subparts
import Transcode.Proofs.Charset.Names
import Transcode.Proofs.Config.Failures
import Transcode.Proofs.Binary64.Compare
import Transcode.Proofs.Charset.DecodeLoop
import Transcode.Proofs.PathSegments
import Transcode.Proofs.Binary64.Rounding
import Transcode.Proofs.Decimal.Exponent
import Transcode.Proofs.Decimal.Notation
import Transcode.Proofs.Decimal.Format
