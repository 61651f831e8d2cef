import CallAtlas.Location
import CallAtlas.Log
import CallAtlas.Number.Binary64

/-!
# Fetching files over the network

What is sent for a location, and what the answer means.  A missing file, an answer with an error
status and a request that never got an answer are three causes of one kind of error.
-/

namespace CallAtlas

/-- Why a file could not be fetched. -/
inductive FetchFault where
  /-- The location does not exist. -/
  | notFound
  /-- It cannot be told whether it does. -/
  | network
deriving DecidableEq, Repr

/-- A failed fetch: the cause, the address of the file's page, and the cause in words. -/
structure FetchError where
  fault : FetchFault
  url : String
  message : String
deriving DecidableEq, Repr

/-- A failed fetch about which nothing more is known. -/
def FetchError.plain (fault : FetchFault) (location : Location) : FetchError :=
  ⟨fault, location.blobUrl, "Could not fetch " ++ location.blobUrl⟩

namespace Fetch

/-- How files are asked for. -/
structure Client where
  /-- How long to wait, in seconds. -/
  timeout : Number.Scalar := .real (.ofInt 10)
  /-- Credentials; an empty text means none. -/
  token : String := ""
  userAgent : String := "solgraph-cli/0.3.0"
deriving DecidableEq, Repr

/-- What is sent. -/
structure Request where
  url : String
  headers : List (String × String)
  timeout : Number.Scalar
deriving DecidableEq, Repr

/-- What comes back. -/
inductive Reply where
  /-- An answer. -/
  | answered (status : Int) (reason text : String)
  /-- The request failed. -/
  | failed (message : String)
  /-- The connection broke in a way that is no failure of the request. -/
  | broken
deriving DecidableEq, Repr

/-- The request for a location. -/
def Client.request (c : Client) (location : Location) : Request where
  url := location.rawUrl
  headers := ("User-Agent", c.userAgent) ::
    (if c.token = "" then [] else [("Authorization", "Bearer " ++ c.token)])
  timeout := c.timeout

/-- What is logged about a request. -/
def Client.announce (location : Location) : Log.Record :=
  .debug ("GET " ++ location.rawUrl)

/-- What a reply to the request for a location means; nothing if the run cannot go on. -/
def Reply.content? (location : Location) : Reply → Option (Except FetchError String)
  | broken => none
  | failed message =>
    some (.error ⟨.network, location.blobUrl,
      "Network error: unable to reach GitHub (" ++ message ++ ")"⟩)
  | answered status reason text =>
    some (
      if status = 404 then .error ⟨.notFound, location.blobUrl, "HTTP 404: " ++ location.path⟩
      else if 400 ≤ status ∧ status < 600 then
        .error ⟨.network, location.blobUrl, "HTTP " ++ toString status ++ ": " ++ reason⟩
      else .ok text)

end Fetch

end CallAtlas
