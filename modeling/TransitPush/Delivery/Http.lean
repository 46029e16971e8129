import TransitPush.Delivery.Transport
import TransitPush.Net.Url
/-!
# Posting without a network

What becomes of posts over HTTP when no connection can be made: an address that cannot be posted to is
refused, and the request to any other fails.
-/
namespace TransitPush

/-- A transport over HTTP that reaches nobody. Mirrors `HttpTransport` before it connects. -/
structure OfflineHttp where

namespace OfflineHttp

/-- Why a post to an address fails. -/
def failure (address : String) : TransportError :=
  if Url.isPostable address then
    .request ("error sending request for url (" ++ address ++ ")")
  else .invalidAddress address

instance : Transport OfflineHttp where
  name := "http"
  post t p := (.error (failure p.address), t)

end OfflineHttp
end TransitPush
