import MsimeLinux.Bytes

/-!
# The secret store (`SecretStore.h`)

Credentials are kept by the desktop's secret service, one for each kind and
provider.
-/

namespace MsimeLinux

/-- `SecretKind` (SecretStore.h:8). -/
inductive SecretKind where
  | aiApiToken
  | translationApiToken
  | voiceApiToken
  | accountSession
  deriving DecidableEq, Repr

/-- `SecretLookupResult` (SecretStore.h:23): its status, and the value where
there is one. -/
inductive SecretLookup where
  | found (value : Bytes)
  | notFound
  | unavailable
  deriving DecidableEq

end MsimeLinux
