import StationNaming.Command.Outcome
/-!
# Listing

The command that lists the IEDs of a station file, all of them or those that a search shows.
-/

namespace StationNaming.Command

/-- What is shown of a session under a query. -/
def listed (session : Session) (input search : String) : List Shown :=
  let query := Search.Query.compile search
  let views := session.views (some query)
  [Display.found views.length input] ++
    (if query.matchesAll then []
      else [Display.matching (views.filter (·.visible)).length search]) ++
    [.table (Display.listing views)]

/-- **Listing the IEDs of a file.** -/
def list (host : Host) (files : Files) (input search : String) : Outcome :=
  match OpenFile.ofPath host files input with
  | .error o => o
  | .ok f => { console := listed f.session input search, files := files }

end StationNaming.Command
