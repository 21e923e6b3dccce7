import Joinery.Main
import Joinery.Proofs.Command.Role
import Joinery.Proofs.CommandLine.Check
import Joinery.Proofs.CommandLine.Document
import Joinery.Proofs.Drawing
import Joinery.Proofs.ExportOptions
import Joinery.Proofs.Expression.Distance
import Joinery.Proofs.Expression.Substitution
import Joinery.Proofs.Face
import Joinery.Proofs.Journal
import Joinery.Proofs.Keyword.Search
import Joinery.Proofs.Keyword.Section
import Joinery.Proofs.Layout
import Joinery.Proofs.Session.Account
import Joinery.Proofs.Session.Break
import Joinery.Proofs.Session.Canonical
import Joinery.Proofs.Session.Comment
import Joinery.Proofs.Session.Copy
import Joinery.Proofs.Session.Fatal
import Joinery.Proofs.Session.GeneratedId
import Joinery.Proofs.Session.Reference
import Joinery.Proofs.Session.Refusal
import Joinery.Proofs.Session.Registry
import Joinery.Proofs.Session.Unknown
import Joinery.Proofs.Session.Unused
import Joinery.Proofs.Token.Span
import Joinery.Proofs.Session.Variable
