import SerialLock.FileTree.Basic
import SerialLock.Text.Utf8

/-!
# The tree around the working directory

The directories of a usual system, with the files that the kernel provides under `/proc`.  Those of
`/proc` itself refuse removal by permission, those of a process because the operation is not
permitted, and the memory of a process cannot be read at its start.
-/

set_option autoImplicit false

namespace SerialLock.FileTree

/-- The directories of a usual system. -/
def usualDirectories : List (List String) :=
  [["bin"], ["dev"], ["etc"], ["home"], ["lib"], ["opt"], ["proc"], ["proc", "self"], ["root"],
    ["run"], ["run", "lock"], ["sbin"], ["sys"], ["tmp"], ["usr"], ["usr", "bin"], ["usr", "lib"],
    ["var"], ["var", "log"], ["var", "tmp"]]

/-- The files of `/proc` that tell about the system. -/
def systemFiles : List String :=
  ["cmdline", "cpuinfo", "crypto", "devices", "diskstats", "filesystems", "interrupts", "iomem",
    "ioports", "loadavg", "locks", "meminfo", "misc", "modules", "partitions", "stat", "swaps",
    "uptime", "version", "vmstat", "zoneinfo"]

/-- The files of `/proc/self` that tell about the running process. -/
def processFiles : List String :=
  ["auxv", "cgroup", "cmdline", "comm", "environ", "io", "limits", "maps", "mountinfo", "mounts",
    "numa_maps", "sched", "smaps", "stat", "statm", "status", "wchan"]

/-- The place that a list of texts names. -/
def placeOf (names : List String) : Place :=
  names.map Utf8.ofString

/-- A usual system with an empty working directory. -/
def standard : FileTree :=
  let home := placeOf ["tmp", "work"]
  { entries :=
      usualDirectories.map (fun names => (placeOf names, Entry.directory))
        ++ [(placeOf ["var", "lock"], .link (Utf8.ofString "/run/lock")),
          (placeOf ["var", "run"], .link (Utf8.ofString "/run")),
          (placeOf ["dev", "null"], .device),
          (placeOf ["proc", "self", "mem"], .kernel (.error .inputOutput) .notPermitted),
          (home, .directory)]
        ++ systemFiles.map (fun name =>
          (placeOf ["proc", name], .kernel (.ok (Utf8.ofString name)) .denied))
        ++ processFiles.map (fun name =>
          (placeOf ["proc", "self", name], .kernel (.ok (Utf8.ofString name)) .notPermitted))
    contents := []
    workingDirectory := home }

end SerialLock.FileTree
