import Roster.Terminal.CellWidth

/-!
# Clusters

A cluster is what shows in one place: a character together with all that is merged
into it. Marks without a width merge into the character in front of them, a joiner
merges the next character as well, and a selector turns a narrow character into
its picture. Text is cut between clusters only, so no character loses its marks.
-/

namespace Roster.Terminal

/-- What shows in one place, and the number of cells it takes. -/
structure Cluster where
  text : List Char
  width : Nat
  deriving DecidableEq, Repr

/-- The character that merges the next one into the cluster. -/
def joiner : Char := '\u200D'

/-- The character that asks for a picture. -/
def selector : Char := '\uFE0F'

namespace Cluster

/-- The cluster a character opens. -/
def opened (c : Char) : Cluster := { text := [c], width := cellWidth c }

/-- A cluster with another character merged into it. -/
def merge (cluster : Cluster) (c : Char) : Cluster :=
  { cluster with text := cluster.text ++ [c] }

/-- A cluster whose picture is asked for. -/
def widen (cluster : Cluster) : Cluster :=
  { cluster with width := cluster.width + 1 }

end Cluster

/-- The clusters of the text behind an open cluster. `measured` is the last
character that took cells, as long as its picture was not asked for, and `joining`
tells whether the next character is merged whatever it is. -/
def clustersBehind (current : Cluster) (measured : Option Char) (joining : Bool) :
    List Char -> List Cluster
  | [] => [current]
  | c :: rest =>
    if joining then clustersBehind (current.merge c) measured false rest
    else if c = joiner then clustersBehind (current.merge c) measured true rest
    else if c = selector then
      if measured.any widenedRanges.contains then
        clustersBehind (current.merge c).widen none false rest
      else clustersBehind (current.merge c) measured false rest
    else if cellWidth c = 0 then clustersBehind (current.merge c) measured false rest
    else current :: clustersBehind (.opened c) (some c) false rest

/-- The clusters of a text. -/
def clusters : List Char -> List Cluster
  | [] => []
  | c :: rest =>
    clustersBehind (.opened c) (if cellWidth c = 0 then none else some c) false rest

/-- The number of cells of a text: that of its clusters. A joiner with nothing in
front of it hides the character behind it. -/
def cells : List Char -> Nat
  | [] => 0
  | [c] => cellWidth c
  | c :: next :: rest =>
    if c = joiner then cells rest
    else ((clusters (c :: next :: rest)).map Cluster.width).sum

/-- The clusters that fit into a number of cells. A cluster that is cut in half
leaves a space. -/
def fitting (room : Nat) : List Cluster -> List Char
  | [] => []
  | cluster :: others =>
    if cluster.width <= room then cluster.text ++ fitting (room - cluster.width) others
    else if room = 0 then []
    else [' ']

/-- A text cut to a number of cells. -/
def clip (width : Nat) (text : List Char) : List Char :=
  if cells text <= width then text else fitting width (clusters text)

/-- The clusters of a text behind an open cluster hold the text. -/
theorem flatMap_text_clustersBehind (current : Cluster) (measured : Option Char)
    (joining : Bool) (text : List Char) :
    (clustersBehind current measured joining text).flatMap Cluster.text =
      current.text ++ text := by
  fun_induction clustersBehind current measured joining text <;>
    simp_all [Cluster.merge, Cluster.widen, Cluster.opened]

/-- Clusters cut a text without changing it. -/
theorem flatMap_text_clusters (text : List Char) :
    (clusters text).flatMap Cluster.text = text := by
  cases text with
  | nil => rfl
  | cons c rest => simp [clusters, flatMap_text_clustersBehind, Cluster.opened]

end Roster.Terminal
