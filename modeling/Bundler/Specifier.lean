/-! The texts that name modules: relative ones, and those of the modules a host provides. -/

namespace Bundler.Specifier

def hostModules : List String :=
  ["assert", "async_hooks", "buffer", "child_process", "cluster", "console", "constants", "crypto",
    "dgram", "diagnostics_channel", "dns", "domain", "events", "fs", "http", "http2", "https",
    "inspector", "module", "net", "os", "path", "perf_hooks", "process", "punycode",
    "querystring", "readline", "repl", "stream", "string_decoder", "sys", "timers", "tls",
    "trace_events", "tty", "url", "util", "v8", "vm", "wasi", "worker_threads", "zlib"]

def withoutScheme : List Char → List Char
  | 'n' :: 'o' :: 'd' :: 'e' :: ':' :: rest => rest
  | name => name

def isHost (specifier : String) : Bool :=
  let name := withoutScheme specifier.toList
  hostModules.contains (String.ofList (name.takeWhile (· != '/')))

def isRelative (specifier : String) : Bool :=
  match specifier.toList with
  | '.' :: '/' :: _ => true
  | '.' :: '.' :: '/' :: _ => true
  | _ => false

end Bundler.Specifier
