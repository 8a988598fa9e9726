import Weave.Configuration.Decode
import Weave.Document.Json
import Weave.Main
import Weave.Proofs.Markup.Block
import Weave.Proofs.Markup.Emission
import Weave.Proofs.Run.Grouping
import Weave.Proofs.Tag.Invocation
import Weave.Proofs.Text.Lines
import Weave.Proofs.Run.Merging
import Weave.Proofs.Tag.Binding
import Weave.Proofs.Document.Canonical
import Weave.Proofs.Tag.Agreement
import Weave.Proofs.Pattern.Search
import Weave.Proofs.Tag.Session
import Weave.Proofs.Pattern.Comment
import Weave.Proofs.Markup.Comment
import Weave.Proofs.Command.Stages
import Weave.Proofs.Text.LineCount
import Weave.Proofs.Configuration.Lookup
import Weave.Proofs.Document.Serialised
import Weave.Proofs.Run.Rewriting
import Weave.Proofs.Tag.BindingOutcome
import Weave.Proofs.Tag.SignatureText
import Weave.Proofs.Text.Division
import Weave.Proofs.Run.CommentLine
import Weave.Proofs.Configuration.Effective
import Weave.Proofs.Document.Comparison
import Weave.Proofs.Tag.Equality
import Weave.Proofs.Markup.Source
import Weave.Proofs.Tag.Supplying
import Weave.Proofs.Tag.Indexing
import Weave.Proofs.Run.Growth
import Weave.Proofs.Tag.History
import Weave.Proofs.Document.Building
import Weave.Proofs.Command.Candidates
import Weave.Proofs.Configuration.Selection
import Weave.Proofs.Text.Scan
