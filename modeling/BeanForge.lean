import BeanForge.Decoder.Code
import BeanForge.Decoder.Key
import BeanForge.Decoder.Scope
import BeanForge.Decoding.OfCode
import BeanForge.Decoding.OfSchema
import BeanForge.Document.Violation
import BeanForge.Document.WellFormed
import BeanForge.Json.Reader
import BeanForge.Main
import BeanForge.Proofs.Agreement.Decoder
import BeanForge.Proofs.Agreement.Positions
import BeanForge.Proofs.Agreement.Renderings
import BeanForge.Proofs.Agreement.ValueClass
import BeanForge.Proofs.Agreement.Wrapper
import BeanForge.Proofs.DecodePlan
import BeanForge.Proofs.Decoder.Completeness
import BeanForge.Proofs.Decoder.Names
import BeanForge.Proofs.Decoding.Objects
import BeanForge.Proofs.Decoding.Properties
import BeanForge.Proofs.Decoding.Refinement
import BeanForge.Proofs.Decoding.Statements
import BeanForge.Proofs.Document.Acceptance
import BeanForge.Proofs.Document.Scopes
import BeanForge.Proofs.Document.Unbound
import BeanForge.Proofs.Fallible
import BeanForge.Proofs.Scopes
import BeanForge.Text.Literal.Reader
import BeanForge.ValueClass.Code
import BeanForge.Wrapper.Behaviour
import BeanForge.Wrapper.Code
import BeanForge.Wrapper.Notification
import BeanForge.Proofs.Document.FirstViolation
import BeanForge.Proofs.ScopeNames
import BeanForge.Proofs.Decoder.Calls
import BeanForge.Proofs.Wrapper.Names
import BeanForge.Proofs.Signatures
import BeanForge.Proofs.Document.Signatures
import BeanForge.Proofs.Interface.Prototype
import BeanForge.Proofs.Interface.ValueClass
import BeanForge.Proofs.Interface.Wrapper
import BeanForge.Proofs.Json.Reading
import BeanForge.Proofs.Model.Emission
import BeanForge.Proofs.Wrapper.Faithful
import BeanForge.Proofs.Wrapper.Functions
import BeanForge.Proofs.Wrapper.Keeping
import BeanForge.Proofs.Wrapper.Signals
import BeanForge.Proofs.Wrapper.Updating
import BeanForge.Proofs.Wrapper.Values
import BeanForge.Proofs.Wrapper.Views
import BeanForge.Wrapper.Call
import BeanForge.Proofs.CommandLine
import BeanForge.Proofs.DecodePlan.Order
import BeanForge.Proofs.Files.Independence
import BeanForge.Proofs.Decoder.Hygiene
import BeanForge.Proofs.Declarations
import BeanForge.Proofs.Model.Mirror
import BeanForge.Proofs.Model.Includes
import BeanForge.Proofs.Model.Locality
import BeanForge.Proofs.DecodePlan.Equality
import BeanForge.Proofs.Document.Targets
import BeanForge.Proofs.Document.Unused
import BeanForge.Proofs.Text.Literal
import BeanForge.Proofs.Text.Latin1
import BeanForge.Proofs.Decoder.Keys
import BeanForge.Proofs.Decoder.Dangling
import BeanForge.Proofs.ValueClass.Embedding
import BeanForge.Proofs.Document.Passing
import BeanForge.Proofs.JsonPath
import BeanForge.Proofs.Model.Postorder
import BeanForge.Proofs.ValueClass.Parts
import BeanForge.Proofs.ValueClass.Code
import BeanForge.Proofs.Wrapper.Code
import BeanForge.Proofs.Decoder.Code
import BeanForge.Proofs.Rendering
import BeanForge.Proofs.Files.Classes
