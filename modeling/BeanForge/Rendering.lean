import BeanForge.Decoder
import BeanForge.ValueClass
import BeanForge.Wrapper
/-!
# Rendering

The files of a code model. A model made from a schema always has them; one written by hand has
none if its decode plan or its classes do not hold what its properties refer to.
-/
namespace BeanForge

/-- The files of a model, named after a stem. -/
def Model.files? (m : Model) (stem : String) : Option (List OutputFile) :=
  match m.target with
  | .bean => some (ValueClass.files m stem)
  | .qtbean => some (Wrapper.files m stem)
  | .factory => Decoder.files? m stem

end BeanForge
