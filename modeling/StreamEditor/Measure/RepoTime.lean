import StreamEditor.Measure.Coverage

namespace StreamEditor.Measure

structure RepoTime where
  percents : List (Text × Json)
  hot : Json

namespace RepoTime

def ofJson (v : Json) : RepoTime :=
  ⟨(memberAt v "repo_time_pct").members, memberAt v "hot_ext"⟩

def threshold : Binary := Binary.ofInteger 45

def percentOf (v : Json) : Binary := v.number?.getD Binary.zero

def failed (x : Binary) : Bool := x.less Binary.zero

def isBelow (x : Binary) : Bool := !failed x && x.less threshold

def below (r : RepoTime) : Nat := r.percents.countP fun p => isBelow (percentOf p.2)

def measured (r : RepoTime) : Nat := r.percents.countP fun p => !failed (percentOf p.2)

def hotPlaces (r : RepoTime) (name : Text) : List (Binary × Text) :=
  ((r.hot.members.lookup name).map Json.items |>.getD []).filterMap fun place =>
    match place.items with
    | [share, .string place] => some (percentOf share, place)
    | _ => none

def remark (r : RepoTime) (name : Text) (x : Binary) : Text :=
  let places := r.hotPlaces name
  if failed x then "  ".toList ++ ((places.head?.map (·.2)).getD "<error>".toList)
  else if isBelow x && !places.isEmpty then
    " (hot: ".toList ++
      Text.join [' '] (places.map fun (share, place) => place ++ ' ' :: Coverage.percentText share) ++
      [')']
  else []

def mark (needed : Bool) : Text := if needed then "  * ".toList else "    ".toList

def row (r : RepoTime) (name : Text) (x : Binary) : Text :=
  let shown := if failed x then Binary.zero else x
  mark (isBelow x) ++ Text.padRight 32 name ++ ' ' :: Text.padLeft ' ' 5 (shown.fixed 1) ++
    '%' :: r.remark name x

def sorted (r : RepoTime) : List (Text × Binary) :=
  (r.percents.map fun p => (p.1, percentOf p.2)).mergeSort fun a b => !b.2.less a.2

def lines (r : RepoTime) : List Text :=
  if r.percents.isEmpty then []
  else [[], "repo_time (target 50%; * = below 45%):".toList] ++ r.sorted.map fun p => r.row p.1 p.2

end RepoTime

end StreamEditor.Measure
