import Classpath.Loading
import Classpath.Checking
import Classpath.FileTree
import Classpath.CommandLine.Run
import Classpath.Main
import Classpath.Proofs.Assembly.History
import Classpath.Proofs.Coordinate.Display
import Classpath.Proofs.Loading
import Classpath.Proofs.Properties.Layout
import Classpath.Proofs.Properties.Seams
import Classpath.Proofs.Properties.Spacing
import Classpath.Proofs.Assembly.Classifying
import Classpath.Proofs.Assembly.Interleaving
import Classpath.Proofs.Document.Fields
import Classpath.Proofs.Properties.Listing
import Classpath.Proofs.Document.Classified
import Classpath.Proofs.Loading.Exclusion
import Classpath.Proofs.Checking
import Classpath.Proofs.Document.Roundtrip
import Classpath.Proofs.Model.Rendering
import Classpath.Proofs.Assembly.Lookup
import Classpath.Proofs.Assembly.Positions
import Classpath.Proofs.Model.Rebuilding
import Classpath.Proofs.Model.Views
import Classpath.Proofs.Loading.Repetition
import Classpath.Proofs.Platform
import Classpath.Proofs.FileAccess
import Classpath.Proofs.Coordinate.Grammar
import Classpath.Proofs.Assembly.Spelling
import Classpath.Proofs.Loading.Defaults
