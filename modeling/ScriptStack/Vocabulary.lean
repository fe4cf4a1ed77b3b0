/-! Names that stand for something, though not for what is asked for by name. -/
namespace ScriptStack.Vocabulary

/-- Names that every module of a program answers to. -/
def ofModules : List String :=
  ["__annotations__", "__builtins__", "__cached__", "__class__", "__delattr__", "__dict__",
    "__dir__", "__doc__", "__eq__", "__file__", "__format__", "__ge__", "__getattribute__",
    "__getstate__", "__gt__", "__hash__", "__init__", "__init_subclass__", "__le__", "__loader__",
    "__lt__", "__name__", "__ne__", "__new__", "__package__", "__path__", "__reduce__",
    "__reduce_ex__", "__repr__", "__setattr__", "__sizeof__", "__spec__", "__str__",
    "__subclasshook__"]

def besideFaults : List String := ["SCRIPT", "exceptions", "formats", "logging"] ++ ofModules

def besideLevels : List String :=
  ["BufferingFormatter", "FileHandler", "Filter", "Filterer", "Formatter", "GenericAlias",
    "Handler", "LogRecord", "Logger", "LoggerAdapter", "Manager", "NullHandler", "PercentStyle",
    "PlaceHolder", "RootLogger", "StrFormatStyle", "StreamHandler", "StringTemplateStyle",
    "Template", "_StderrHandler", "__all__", "__author__", "__date__", "__status__",
    "__version__", "_acquireLock", "_addHandlerRef", "_after_at_fork_child_reinit_locks",
    "_at_fork_reinit_lock_weakset", "_checkLevel", "_defaultFormatter", "_defaultLastResort",
    "_handlerList", "_handlers", "_is_internal_frame", "_levelToName", "_lock",
    "_logRecordFactory", "_loggerClass", "_nameToLevel", "_register_at_fork_reinit_lock",
    "_releaseLock", "_removeHandlerRef", "_showwarning", "_srcfile", "_startTime",
    "_str_formatter", "_warnings_showwarning", "addLevelName", "atexit", "basicConfig",
    "captureWarnings", "collections", "critical", "currentframe", "debug", "disable", "error",
    "exception", "fatal", "getLevelName", "getLevelNamesMapping", "getLogRecordFactory",
    "getLogger", "getLoggerClass", "info", "io", "lastResort", "log", "makeLogRecord", "os",
    "raiseExceptions", "re", "root", "setLogRecordFactory", "setLoggerClass", "shutdown", "sys",
    "threading", "time", "traceback", "warn", "warning", "warnings", "weakref"] ++ ofModules

end ScriptStack.Vocabulary
