import SpriteScript.Editor.Command
import SpriteScript.Json.Reader
import SpriteScript.Project.Load
import SpriteScript.Proofs.Acceptance.Calls
import SpriteScript.Proofs.Acceptance.Returns
import SpriteScript.Proofs.Acceptance.Updates
import SpriteScript.Proofs.Completeness
import SpriteScript.Proofs.Constants.Expressions
import SpriteScript.Proofs.Editor.Completion
import SpriteScript.Proofs.Editor.Slot
import SpriteScript.Proofs.Extent
import SpriteScript.Proofs.Heads
import SpriteScript.Proofs.Program.DeclaredTypes
import SpriteScript.Proofs.Program.Fields
import SpriteScript.Proofs.Program.Initialization
import SpriteScript.Proofs.Program.Phases
import SpriteScript.Proofs.Program.Redeclaration
import SpriteScript.Proofs.Program.References
import SpriteScript.Proofs.Program.Scopes
import SpriteScript.Proofs.Program.SymbolAt
import SpriteScript.Proofs.Recovery
import SpriteScript.Proofs.Resource.Listing
import SpriteScript.Proofs.Respacing
import SpriteScript.Proofs.RoundTrip.Assignment
import SpriteScript.Proofs.Semantics.NodeKeys
import SpriteScript.Proofs.Termination
import SpriteScript.Proofs.Text.Words
