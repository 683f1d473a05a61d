import Marginalia.Proofs.Result
import Marginalia.Proofs.Text.Order
import Marginalia.Site.Publication

/-!
# A sample site

A site read from `/content` and written to a directory of its own, and disks that
hold given text files, for use where a statement is about single disks.
-/

namespace Marginalia

/-- The disk with a text file at a location, and with the directories that lead to it. -/
def Disk.addFile (disk : Disk) (location : Location) (text : String) : Disk :=
  let disk := (List.range location.length).foldl (fun disk n =>
    if (disk.get? (location.take n)).isNone then disk.put (location.take n) .directory
    else disk) disk
  disk.put location (.file (Encoding.encodeUtf8 text.toList) disk.now)

/-- The disk with text files at these paths from the root. -/
def Disk.ofFiles (files : List (String × String)) : Disk :=
  files.foldl (fun disk (path, text) => disk.addFile (Path.ofText path.toList).parts text)
    { working := [], now := 0, entries := [] }

/-- A site with its content in `/content`, whose files are taken for nothing if they are
    not in UTF-8. -/
def Site.sample (output : String) : Site where
  settings := { Settings.standard with
    contentDir := .ofText "/content".toList
    outputDir := .ofText output.toList }
  detect _ := none

/-- A disk with a project that is not built. -/
def Site.unbuilt : Disk := .ofFiles [("/content/a/project.json", "\x7b\"name\": \"A\"\x7d")]

/-- Two projects are put in order. Sorting is by well-founded recursion, so for a single
    disk it is not evaluated. -/
theorem Site.projects_eq_pair {site : Site} {d : Disk} {id id' : Text}
    (hthere : d.isDirectory site.content.directory = .ok true)
    (hamong : site.content.projectsAmong d ((d.children site.content.directory).map (·.1)) =
      .ok [id', id]) (hascending : Text.Ascending [id, id']) :
    site.projects d = .ok [id, id'] := by
  have hnodup : [id', id].Nodup := (List.Perm.swap id' id []).nodup hascending.nodup
  have hsort : Text.sort [id', id] = [id, id'] :=
    (Text.ascending_sort hnodup).eq_of_mem_iff hascending fun s => by
      rw [Text.mem_sort_iff, List.mem_pair, List.mem_pair, or_comm]
  rw [projects, Content.projects, hthere, ok_bind, if_pos rfl, hamong, ok_bind, hsort]
  rfl

end Marginalia
