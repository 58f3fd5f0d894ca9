import LoadBench.Plan.CustomTest
import LoadBench.Suite.Endpoints

/-!
# Users of the benchmark service

The pages of a shop, what users do there, and mixes of such users, once on blocking database
sessions and once on others.

* `Suite.pages`, `Suite.actions`: every page and every action.
* `Suite.mixes`: from quiet hours to a sale, and the two kinds of session side by side.
* `Suite.customTests`: all actions in equal shares, for the numbers of users on offer.
-/

namespace LoadBench.Suite

/-- The kinds of database session that pages can be served from. -/
inductive Session
  | blocking
  | nonblocking
deriving DecidableEq, Repr

namespace Session

/-- The endpoint that runs several queries on such a session. -/
def queries : Session → Endpoint
  | blocking => syncQueries
  | nonblocking => asyncQueries

/-- What is added to names. -/
def suffix : Session → String
  | blocking => ""
  | nonblocking => " (async)"

/-- A kind of request that runs some queries. -/
def request (s : Session) (queryCount expectedMs : Nat) (complexity : Complexity) :
    RequestKind where
  endpoint := s.queries
  queryCount := some queryCount
  timeoutSecs := none
  expectedMs := expectedMs
  complexity := complexity

/-- A light read. -/
def simpleRead (s : Session) : RequestKind := s.request 2 500 .low

/-- A heavier read. -/
def complexRead (s : Session) : RequestKind := s.request 5 1200 .medium

/-- A write. -/
def write (s : Session) : RequestKind := s.request 3 800 .medium

/-- An analysis. -/
def analysis (s : Session) : RequestKind := s.request 8 2500 .high

/-- The list of products. -/
def listing (s : Session) : Page where
  name := "Product listing" ++ s.suffix
  description := "Product list, light reads"
  requests := [⟨s.simpleRead, 0.7⟩, ⟨s.complexRead, 0.3⟩]

/-- The page of one product. -/
def detail (s : Session) : Page where
  name := "Product detail" ++ s.suffix
  description := "Details, reviews and recommendations"
  requests := [⟨s.simpleRead, 0.4⟩, ⟨s.complexRead, 0.4⟩, ⟨s.analysis, 0.2⟩]

/-- Payment. -/
def checkout (s : Session) : Page where
  name := "Checkout" ++ s.suffix
  description := "Payment and order confirmation, includes writes"
  requests := [⟨s.simpleRead, 0.3⟩, ⟨s.write, 0.6⟩, ⟨s.complexRead, 0.1⟩]

/-- The dashboard of the administrators. -/
def dashboard (s : Session) : Page where
  name := "Admin dashboard" ++ s.suffix
  description := "Monitoring and analytics for administrators"
  requests := [⟨s.complexRead, 0.4⟩, ⟨s.analysis, 0.6⟩]

/-- Looking around. -/
def browse (s : Session) : UserAction where
  name := "Browse products" ++ s.suffix
  description := "Search products and open their detail pages"
  pages := [s.listing, s.detail, s.detail]

/-- Buying something. -/
def purchase (s : Session) : UserAction where
  name := "Purchase flow" ++ s.suffix
  description := "Search, view and buy a product"
  pages := [s.listing, s.detail, s.checkout]

/-- Looking after the shop. -/
def administer (s : Session) : UserAction where
  name := "Admin work" ++ s.suffix
  description := "Check the dashboard and manage products"
  pages := [s.dashboard, s.listing, s.detail]

/-- Both kinds. -/
def all : List Session := [blocking, nonblocking]

end Session

/-- Every page, those on blocking sessions first. -/
def pages : List Page :=
  Session.all.flatMap fun s => [s.listing, s.detail, s.checkout, s.dashboard]

/-- Every action, those on blocking sessions first. -/
def actions : List UserAction :=
  Session.all.flatMap fun s => [s.browse, s.purchase, s.administer]

open Session in
/-- Mixes from quiet hours to a sale, and the two kinds of session side by side. -/
def mixes : List Mix :=
  [{ name := "Low traffic: 10 concurrent users", description := "Off-peak hours", users := 10
     actions := [⟨blocking.browse, 0.6⟩, ⟨blocking.purchase, 0.4⟩] },
    { name := "Medium traffic: 50 concurrent users", description := "Regular business hours"
      users := 50
      actions := [⟨blocking.browse, 0.5⟩, ⟨blocking.purchase, 0.4⟩, ⟨blocking.administer, 0.1⟩] },
    { name := "High traffic: 100 concurrent users", description := "Promotion or sale period"
      users := 100, actions := [⟨blocking.browse, 0.7⟩, ⟨blocking.purchase, 0.3⟩] },
    { name := "Peak traffic: 200 concurrent users", description := "Black Friday level traffic"
      users := 200, actions := [⟨blocking.browse, 0.6⟩, ⟨blocking.purchase, 0.4⟩] },
    { name := "Sync vs async: low traffic (50 users)"
      description := "Same browsing flow on sync and async sessions", users := 50
      actions := [⟨blocking.browse, 0.5⟩, ⟨nonblocking.browse, 0.5⟩] },
    { name := "Sync vs async: high traffic (100 users)"
      description := "Same purchase flow on sync and async sessions", users := 100
      actions := [⟨blocking.purchase, 0.5⟩, ⟨nonblocking.purchase, 0.5⟩] }]

/-- The numbers of users on offer for custom tests. -/
def userCounts : List Nat := [10, 20, 50, 100, 200, 500]

/-- Custom tests of all actions under a traffic pattern, one for every number of users on offer. -/
def customTests (pattern : TrafficPattern) : List CustomTest :=
  userCounts.map fun users => { users, actions, pattern }

end LoadBench.Suite
