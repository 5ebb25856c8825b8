/-
# The text around a snippet

The root file of a unit is a fixed text with two places in it: one for the lines of the
prelude, one for the command, which becomes the body of the entry point's `on_load`. The
rest is what a unit needs: the snippet's way to the log, the layout of the tables it shares
with its host, and the registration of its one entry point.

The text is kept as the lines before the first place, between the two, and after the second.
-/

namespace SnippetConsole
namespace Snippet

/-- The place for the prelude. -/
def preludeMarker : String := "/*@PRELUDE@*/"

/-- The place for the command. -/
def bodyMarker : String := "/*@BODY@*/"

/-- The lines before the prelude. -/
def linesBefore : List String := [
  "// Generated by livecode for one command-line submission.",
  "#![allow(",
  "    dead_code,",
  "    non_snake_case,",
  "    unreachable_code,",
  "    unused_braces,",
  "    unused_imports,",
  "    unused_macros,",
  "    unused_mut,",
  "    unused_unsafe,",
  "    unused_variables",
  ")]",
  "",
  ""]

/-- The lines between the prelude and the command. -/
def linesBetween : List String := [
  "",
  "",
  "/// Format the arguments and write them to the console log.",
  "macro_rules! console \x7b",
  "    ($($arg:tt)*) => \x7b",
  "        $crate::log::message(::std::format!($($arg)*))",
  "    \x7d;",
  "\x7d",
  "",
  "/// Console log access for snippet code.",
  "pub mod log \x7b",
  "    /// Informational message.",
  "    pub fn message(text: impl ::std::fmt::Display) \x7b",
  "        crate::host::emit(0, &text.to_string());",
  "    \x7d",
  "",
  "    /// Warning.",
  "    pub fn warning(text: impl ::std::fmt::Display) \x7b",
  "        crate::host::emit(1, &text.to_string());",
  "    \x7d",
  "",
  "    /// Error.",
  "    pub fn error(text: impl ::std::fmt::Display) \x7b",
  "        crate::host::emit(2, &text.to_string());",
  "    \x7d",
  "\x7d",
  "",
  "/// Entry-point ABI shared with the host console.",
  "pub mod host \x7b",
  "    use ::std::cell::Cell;",
  "    use ::std::ffi::c_void;",
  "",
  "    pub const ABI_VERSION: u32 = 1;",
  "    pub const STATUS_OK: u32 = 0;",
  "    pub const STATUS_FAULT: u32 = 1;",
  "",
  "    #[repr(C)]",
  "    pub struct HostApi \x7b",
  "        pub abi_version: u32,",
  "        pub ctx: *mut c_void,",
  "        pub log: extern \"C\" fn(*mut c_void, u32, *const u8, usize),",
  "        pub fault: extern \"C\" fn(*mut c_void, *const u8, usize),",
  "    \x7d",
  "",
  "    #[repr(C)]",
  "    pub struct EntryPoint \x7b",
  "        pub abi_version: u32,",
  "        pub name_ptr: *const u8,",
  "        pub name_len: usize,",
  "        pub create: unsafe extern \"C\" fn() -> *mut c_void,",
  "        pub on_load: unsafe extern \"C\" fn(*mut c_void, *const HostApi) -> u32,",
  "        pub on_unload: unsafe extern \"C\" fn(*mut c_void, *const HostApi) -> u32,",
  "        pub destroy: unsafe extern \"C\" fn(*mut c_void),",
  "    \x7d",
  "",
  "    #[repr(C)]",
  "    pub struct Registrar \x7b",
  "        pub abi_version: u32,",
  "        pub ctx: *mut c_void,",
  "        pub register: extern \"C\" fn(*mut c_void, *const EntryPoint),",
  "    \x7d",
  "",
  "    thread_local! \x7b",
  "        static CURRENT: Cell<*const HostApi> = const \x7b Cell::new(::std::ptr::null()) \x7d;",
  "    \x7d",
  "",
  "    /// Send a message to the host log. Dropped outside an `on_load` /",
  "    /// `on_unload` call and on threads the snippet spawned itself.",
  "    pub fn emit(severity: u32, text: &str) \x7b",
  "        CURRENT.with(|current| \x7b",
  "            let api = current.get();",
  "            if api.is_null() \x7b",
  "                return;",
  "            \x7d",
  "            unsafe \x7b ((*api).log)((*api).ctx, severity, text.as_ptr(), text.len()) \x7d;",
  "        \x7d);",
  "    \x7d",
  "",
  "    fn panic_message(payload: &(dyn ::std::any::Any + Send)) -> String \x7b",
  "        if let Some(message) = payload.downcast_ref::<&str>() \x7b",
  "            (*message).to_string()",
  "        \x7d else if let Some(message) = payload.downcast_ref::<String>() \x7b",
  "            message.clone()",
  "        \x7d else \x7b",
  "            \"non-string panic payload\".to_string()",
  "        \x7d",
  "    \x7d",
  "",
  "    fn run_with_host(api: *const HostApi, f: impl FnOnce()) -> u32 \x7b",
  "        if api.is_null() \x7b",
  "            return STATUS_FAULT;",
  "        \x7d",
  "        let previous = CURRENT.with(|current| current.replace(api));",
  "        let result = ::std::panic::catch_unwind(::std::panic::AssertUnwindSafe(f));",
  "        CURRENT.with(|current| current.set(previous));",
  "        match result \x7b",
  "            Ok(()) => STATUS_OK,",
  "            Err(payload) => \x7b",
  "                let message = panic_message(&*payload);",
  "                unsafe \x7b ((*api).fault)((*api).ctx, message.as_ptr(), message.len()) \x7d;",
  "                STATUS_FAULT",
  "            \x7d",
  "        \x7d",
  "    \x7d",
  "",
  "    unsafe extern \"C\" fn create<T: crate::ModEntryPoint + Default>() -> *mut c_void \x7b",
  "        match ::std::panic::catch_unwind(|| Box::into_raw(Box::new(T::default()))) \x7b",
  "            Ok(instance) => instance.cast(),",
  "            Err(_) => ::std::ptr::null_mut(),",
  "        \x7d",
  "    \x7d",
  "",
  "    unsafe extern \"C\" fn on_load<T: crate::ModEntryPoint>(",
  "        instance: *mut c_void,",
  "        api: *const HostApi,",
  "    ) -> u32 \x7b",
  "        if instance.is_null() \x7b",
  "            return STATUS_FAULT;",
  "        \x7d",
  "        let instance = unsafe \x7b &mut *instance.cast::<T>() \x7d;",
  "        run_with_host(api, || instance.on_load())",
  "    \x7d",
  "",
  "    unsafe extern \"C\" fn on_unload<T: crate::ModEntryPoint>(",
  "        instance: *mut c_void,",
  "        api: *const HostApi,",
  "    ) -> u32 \x7b",
  "        if instance.is_null() \x7b",
  "            return STATUS_FAULT;",
  "        \x7d",
  "        let instance = unsafe \x7b &mut *instance.cast::<T>() \x7d;",
  "        run_with_host(api, || instance.on_unload())",
  "    \x7d",
  "",
  "    unsafe extern \"C\" fn destroy<T>(instance: *mut c_void) \x7b",
  "        if instance.is_null() \x7b",
  "            return;",
  "        \x7d",
  "        let _ = ::std::panic::catch_unwind(::std::panic::AssertUnwindSafe(|| \x7b",
  "            drop(unsafe \x7b Box::from_raw(instance.cast::<T>()) \x7d);",
  "        \x7d));",
  "    \x7d",
  "",
  "    pub fn register<T: crate::ModEntryPoint + Default>(registrar: *const Registrar) \x7b",
  "        if registrar.is_null() \x7b",
  "            return;",
  "        \x7d",
  "        let registrar = unsafe \x7b &*registrar \x7d;",
  "        let name = ::std::any::type_name::<T>();",
  "        let entry = EntryPoint \x7b",
  "            abi_version: ABI_VERSION,",
  "            name_ptr: name.as_ptr(),",
  "            name_len: name.len(),",
  "            create: create::<T>,",
  "            on_load: on_load::<T>,",
  "            on_unload: on_unload::<T>,",
  "            destroy: destroy::<T>,",
  "        \x7d;",
  "        (registrar.register)(registrar.ctx, &entry);",
  "    \x7d",
  "\x7d",
  "",
  "/// Something the console can load and run.",
  "pub trait ModEntryPoint \x7b",
  "    /// Called once after the unit is loaded.",
  "    fn on_load(&mut self);",
  "",
  "    /// Called when an embedder unloads the entry point.",
  "    fn on_unload(&mut self) \x7b\x7d",
  "\x7d",
  "",
  "#[derive(Default)]",
  "pub struct CommandLineRunner;",
  "",
  "impl ModEntryPoint for CommandLineRunner \x7b",
  "    fn on_load(&mut self) \x7b",
  "        let _ = \x7b",
  ""]

/-- The lines after the command. -/
def linesAfter : List String := [
  "",
  "        \x7d;",
  "    \x7d",
  "\x7d",
  "",
  "#[no_mangle]",
  "pub extern \"C\" fn livecode_register_v1(registrar: *const host::Registrar) \x7b",
  "    host::register::<CommandLineRunner>(registrar);",
  "\x7d",
  ""]

/-- The text before the prelude. -/
def textBefore : String := String.intercalate "\n" linesBefore

/-- The text between the prelude and the command. -/
def textBetween : String := String.intercalate "\n" linesBetween

/-- The text after the command. -/
def textAfter : String := String.intercalate "\n" linesAfter

/-- The text with both places marked. -/
def frame : String := textBefore ++ preludeMarker ++ textBetween ++ bodyMarker ++ textAfter

end Snippet
end SnippetConsole
