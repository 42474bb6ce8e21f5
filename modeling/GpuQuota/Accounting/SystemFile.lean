import GpuQuota.Accounting.Interception
import GpuQuota.FileTree

/-!
# Files of other drivers

A process calls other drivers too, through descriptors of any files. What a call is looked into for
is told by the status of the file (`FileStatus.number?`): only a character device has device
numbers, and they are packed into one word.

The kernel's own devices have the same numbers on every machine; such a device does not know the
requests that this library looks for, and a call with one of them fails. `SystemFile.tree` is the
part of the file tree that systems have in common, which is enough to find these devices.
-/

namespace GpuQuota.Accounting

/-- What the system tells of an open file. -/
structure FileStatus where
  /-- the file's kind and who may use it, in bits -/
  mode : UInt32
  /-- the device numbers of a device, packed -/
  device : UInt64
  deriving DecidableEq, Repr

namespace FileStatus

/-- The bits of a mode that tell the kind of a file. -/
def kindMask : UInt32 := 0o170000

/-- The kind of a character device. -/
def characterDevice : UInt32 := 0o020000

/-- The major number in a word that holds both: its bits are in two places. -/
def major (device : UInt64) : UInt32 :=
  let upper := (device >>> 32).toUInt32
  let lower := (device >>> 8).toUInt32
  (upper &&& 0xfffff000) ||| (lower &&& 0xfff)

/-- The minor number, around the lower bits of the major one. -/
def minor (device : UInt64) : UInt32 :=
  let upper := (device >>> 12).toUInt32
  (upper &&& 0xffffff00) ||| (device.toUInt32 &&& 0xff)

/-- The device numbers of a character device. Other files have none. -/
def number? (status : FileStatus) : Option DeviceNumber :=
  if status.mode &&& kindMask = characterDevice then
    some (major status.device, minor status.device)
  else none

end FileStatus

namespace SystemFile

/-! ## One system -/

/-- The directories that systems have in common, by the place they are in. -/
def directories : List (Place × List String) :=
  [([], ["boot", "dev", "etc", "home", "media", "mnt", "opt", "proc", "root", "run", "srv", "sys",
      "tmp", "usr", "var"]),
    (["dev"], ["mqueue", "pts", "shm"]),
    (["etc"], ["alternatives", "apt", "cron.d", "cron.daily", "default", "dpkg", "init.d",
      "kernel", "ld.so.conf.d", "logrotate.d", "opt", "pam.d", "profile.d", "security", "selinux",
      "skel", "ssl", "systemd", "terminfo"]),
    (["etc", "apt"], ["apt.conf.d", "preferences.d", "sources.list.d", "trusted.gpg.d"]),
    (["etc", "ssl"], ["certs", "private"]),
    (["proc"], ["1", "acpi", "bus", "driver", "fs", "irq", "sys", "sysvipc", "tty"]),
    (["proc", "1"], ["attr", "fd", "fdinfo", "map_files", "net", "ns", "task"]),
    (["proc", "1", "net"], ["stat"]),
    (["proc", "1", "task"], ["1"]),
    (["proc", "1", "task", "1"], ["attr", "fd", "fdinfo", "net", "ns"]),
    (["proc", "bus"], ["input", "pci"]),
    (["proc", "sys"], ["abi", "debug", "dev", "fs", "kernel", "net", "user", "vm"]),
    (["proc", "sys", "fs"], ["binfmt_misc", "epoll", "inotify", "mqueue", "quota"]),
    (["proc", "sys", "kernel"], ["keys", "pty", "random", "seccomp", "usermodehelper"]),
    (["proc", "sys", "net"], ["core", "ipv4", "ipv6", "netfilter", "unix"]),
    (["proc", "sys", "net", "ipv4"], ["conf", "neigh", "route"]),
    (["proc", "sys", "net", "ipv6"], ["conf", "icmp", "neigh", "route"]),
    (["proc", "tty"], ["driver", "ldisc"]),
    (["run"], ["lock"]),
    (["sys"], ["block", "bus", "class", "dev", "devices", "firmware", "fs", "kernel", "module",
      "power"]),
    (["sys", "bus"], ["cpu", "pci", "platform"]),
    (["sys", "class"], ["bdi", "block", "input", "mem", "misc", "net", "tty"]),
    (["sys", "dev"], ["block", "char"]),
    (["sys", "devices"], ["platform", "software", "system", "virtual"]),
    (["sys", "devices", "system"], ["clockevents", "clocksource", "cpu", "memory", "node"]),
    (["sys", "devices", "system", "cpu"], ["cpu0"]),
    (["sys", "devices", "virtual"], ["block", "mem", "misc", "net", "tty"]),
    (["sys", "devices", "virtual", "mem"], ["full", "null", "random", "urandom", "zero"]),
    (["sys", "fs"], ["cgroup"]),
    (["sys", "kernel"], ["debug", "irq", "mm", "security", "slab", "tracing"]),
    (["sys", "module"], ["kernel", "printk"]),
    (["sys", "module", "kernel"], ["parameters"]),
    (["usr"], ["bin", "games", "include", "lib", "lib64", "libexec", "local", "sbin", "share",
      "src"]),
    (["usr", "lib"], ["apt", "dpkg", "init", "locale", "mime", "systemd", "tmpfiles.d", "udev",
      "x86_64-linux-gnu"]),
    (["usr", "local"], ["bin", "etc", "games", "include", "lib", "sbin", "share", "src"]),
    (["usr", "local", "share"], ["ca-certificates", "man"]),
    (["usr", "share"], ["bash-completion", "common-licenses", "debconf", "doc", "dpkg", "info",
      "keyrings", "lintian", "locale", "man", "menu", "misc", "pam", "perl5", "pixmaps",
      "terminfo", "zoneinfo"]),
    (["var"], ["backups", "cache", "lib", "local", "log", "mail", "opt", "spool", "tmp"]),
    (["var", "cache"], ["apt", "debconf", "ldconfig"]),
    (["var", "lib"], ["apt", "dpkg", "misc", "pam", "systemd"]),
    (["var", "log"], ["apt"])]

/-- Where this process is. -/
def workingDirectory : Place := ["tmp"]

/-- The links that systems have in common. The process itself goes by the number 1. -/
def links : List (Place × Place) :=
  [(["bin"], ["usr", "bin"]), (["lib"], ["usr", "lib"]), (["lib64"], ["usr", "lib64"]),
    (["sbin"], ["usr", "sbin"]), (["dev", "fd"], ["proc", "self", "fd"]),
    (["proc", "net"], ["proc", "self", "net"]), (["proc", "self"], ["proc", "1"]),
    (["proc", "thread-self"], ["proc", "1", "task", "1"]), (["proc", "1", "cwd"], workingDirectory),
    (["proc", "1", "root"], []), (["proc", "1", "task", "1", "cwd"], workingDirectory),
    (["proc", "1", "task", "1", "root"], []),
    (["usr", "local", "man"], ["usr", "local", "share", "man"]),
    (["var", "lock"], ["run", "lock"]), (["var", "run"], ["run"]),
    (["var", "spool", "mail"], ["var", "mail"])]

/-- The files of the system, which has no links. -/
def tree : FileTree where
  isDirectory place :=
    match place.getLast? with
    | none => true
    | some name => ((directories.lookup place.dropLast).getD []).contains name
  target? place := links.lookup place
  workingDirectory := workingDirectory
  mostLinks := 40
  longestPath := 4095

/-- The kernel's own character devices, with their packed numbers. -/
def devices : List (Place × UInt64) :=
  [(["dev", "null"], 0x103), (["dev", "zero"], 0x105), (["dev", "full"], 0x107),
    (["dev", "random"], 0x108), (["dev", "urandom"], 0x109), (["dev", "ptmx"], 0x502),
    (["dev", "pts", "ptmx"], 0x502)]

/-- The status of a device, which everybody may read and write. -/
def status? (place : Place) : Option FileStatus :=
  (devices.lookup place).map fun device => ⟨FileStatus.characterDevice ||| 0o666, device⟩

/-! ## Calls -/

/-- The device numbers behind a path. There are none where the path leads nowhere, or to another
file. -/
def device? (path : String) : Option DeviceNumber :=
  ((tree.find? path).bind status?).bind FileStatus.number?

/-- What a call answers whose request the driver does not know. -/
def unknownRequest : Int32 := -1

end SystemFile

end GpuQuota.Accounting
