import SandboxProfile.Keyword.Catalog

/-!
# Builtin keywords

The keywords that a catalog holds before any are added, by category and in the order in
which they are listed.

## Main definitions

* `builtinWords` lists the keywords of a category.
* `Catalog.builtin` is the catalog of exactly these keywords.
-/

namespace SandboxProfile

/-- The builtin keywords of a category. -/
def builtinWords : Category → List String
  | .directive =>
      ["include", "blacklist", "blacklist-nolog", "noblacklist", "whitelist",
        "whitelist-ro", "nowhitelist", "read-only", "read-write", "noexec", "tmpfs", "mkdir",
        "mkfile", "bind", "ignore"]
  | .option =>
      ["apparmor", "caps", "caps.drop", "caps.keep", "cpu", "disable-mnt", "dns", "env",
        "hostname", "ipc-namespace", "join-or-start", "machine-id",
        "memory-deny-write-execute", "name", "net", "netfilter", "netns", "nice", "no3d",
        "nodvd", "nogroups", "noinput", "nonewprivs", "noroot", "nosound", "notv", "nou2f",
        "novideo", "protocol", "quiet", "restrict-namespaces", "rlimit-as", "rlimit-fsize",
        "rlimit-nofile", "rlimit-nproc", "rlimit-sigpending", "rmenv", "seccomp",
        "seccomp.block-secondary", "seccomp.drop", "seccomp.keep", "shell", "timeout",
        "tracelog", "x11"]
  | .privateOption =>
      ["private", "private-bin", "private-cache", "private-cwd", "private-dev",
        "private-etc", "private-home", "private-lib", "private-opt", "private-srv",
        "private-tmp"]
  | .dbusOption =>
      ["dbus-user", "dbus-user.own", "dbus-user.talk", "dbus-user.see", "dbus-user.call",
        "dbus-user.broadcast", "dbus-system", "dbus-system.own", "dbus-system.talk",
        "dbus-system.see", "dbus-system.call", "dbus-system.broadcast"]
  | .specialOption =>
      ["allusers", "deterministic-exit-code", "keep-config-pulse", "keep-dev-shm",
        "keep-fd", "keep-shell-rc", "keep-var-tmp", "writable-etc", "writable-run-user",
        "writable-var", "writable-var-log"]
  | .landlockOption =>
      ["landlock.enforce", "landlock.fs.read", "landlock.fs.write", "landlock.fs.makeipc",
        "landlock.fs.makedev", "landlock.fs.execute"]
  | .allowOption =>
      ["allow-debuggers"]

/-- The declarations of the builtin keywords. -/
def builtinDeclarations : List Declaration :=
  Category.all.flatMap fun c => (builtinWords c).map fun w => (w.toList, c)

/-- The catalog of the builtin keywords. -/
def Catalog.builtin : Catalog :=
  .ofDeclarations builtinDeclarations

end SandboxProfile
