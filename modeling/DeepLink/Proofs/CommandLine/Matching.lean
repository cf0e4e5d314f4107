import DeepLink.CommandLine
import DeepLink.Proofs.Matching.Listing
import DeepLink.Proofs.Router.Files
import DeepLink.Proofs.Router.Offers
import DeepLink.Proofs.Router.Schemes

/-!
# Matching on the command line

A URL is matched with a template, or with the routes of a file. The two go different ways: one reads
the template and matches it, the other makes a router of the file and asks it for the URL. For a
file with one route and no scheme they come to the same end (`matchRouteFile_single`), but for the
line with the name and for the message about a template that cannot be read, whatever brings domain
names into ASCII.
-/

namespace DeepLink

namespace CommandLine

end CommandLine

end DeepLink
