import Frontispiece.Files.Path

/-!
# Media types

The media type of a file goes by the extension of its name, in which case does not count.
-/

set_option autoImplicit false

namespace Frontispiece
namespace Files

/-- Media types, each with the extensions that have it. -/
def mediaTypes : List (String × String) :=
  [
    ("image/png", "png"),
    ("image/gif", "gif"),
    ("image/jpeg", "jpg jpeg jpe"),
    ("image/svg+xml", "svg svgz"),
    ("image/webp", "webp"),
    ("image/avif", "avif"),
    ("image/bmp", "bmp dib"),
    ("image/x-icon", "ico"),
    ("image/tiff", "tif tiff"),
    ("image/heic", "heic"),
    ("image/heif", "heif"),
    ("image/apng", "apng"),
    ("image/pjpeg", "jfif"),
    ("image/vnd.adobe.photoshop", "psd"),
    ("image/vnd.djvu", "djvu djv"),
    ("image/x-tga", "tga"),
    ("image/x-portable-pixmap", "ppm"),
    ("image/x-portable-graymap", "pgm"),
    ("image/x-portable-bitmap", "pbm"),
    ("image/x-xbitmap", "xbm"),
    ("image/x-xpixmap", "xpm"),
    ("text/plain", "txt text log conf def list in asm bas c cnf cpp cs h hpp hxx ini vb"),
    ("text/html", "html htm hxt shtml"),
    ("text/css", "css"),
    ("text/csv", "csv"),
    ("text/javascript", "js mjs"),
    ("text/xml", "xml xsl xslt xsd"),
    ("text/markdown", "md markdown"),
    ("text/tab-separated-values", "tsv"),
    ("text/calendar", "ics ifb"),
    ("text/x-vcard", "vcf"),
    ("text/richtext", "rtx"),
    ("text/x-toml", "toml"),
    ("text/x-yaml", "yaml yml"),
    ("text/x-rust", "rs"),
    ("text/x-scss", "scss"),
    ("text/x-handlebars-template", "hbs handlebars"),
    ("text/jscript", "jsx"),
    ("text/vtt", "vtt"),
    ("text/x-nfo", "nfo"),
    ("text/x-lua", "lua"),
    ("application/json", "json map"),
    ("application/ld+json", "jsonld"),
    ("application/manifest+json", "webmanifest"),
    ("application/pdf", "pdf"),
    ("application/zip", "zip"),
    ("application/gzip", "gz"),
    ("application/x-tar", "tar"),
    ("application/x-compressed", "tgz"),
    ("application/x-7z-compressed", "7z"),
    ("application/x-rar-compressed", "rar"),
    ("application/x-bzip2", "bz2 boz"),
    ("application/x-bzip", "bz"),
    ("application/x-xz", "xz"),
    ("application/wasm", "wasm"),
    ("application/octet-stream", "bin"),
    ("application/xhtml+xml", "xhtml xht"),
    ("application/atom+xml", "atom"),
    ("application/rss+xml", "rss"),
    ("application/rtf", "rtf"),
    ("application/msword", "doc dot"),
    ("application/vnd.openxmlformats-officedocument.wordprocessingml.document", "docx"),
    ("application/vnd.ms-excel", "xls"),
    ("application/vnd.openxmlformats-officedocument.spreadsheetml.sheet", "xlsx"),
    ("application/vnd.ms-powerpoint", "ppt"),
    ("application/vnd.openxmlformats-officedocument.presentationml.presentation", "pptx"),
    ("application/vnd.oasis.opendocument.text", "odt"),
    ("application/vnd.oasis.opendocument.spreadsheet", "ods"),
    ("application/vnd.ms-fontobject", "eot"),
    ("application/postscript", "ps eps ai"),
    ("application/x-sh", "sh"),
    ("application/sql", "sql"),
    ("application/java-archive", "jar"),
    ("application/epub+zip", "epub"),
    ("application/x-latex", "latex"),
    ("application/x-tex", "tex"),
    ("application/x-shockwave-flash", "swf"),
    ("application/x-x509-ca-cert", "cer crt der"),
    ("font/woff", "woff"),
    ("font/woff2", "woff2"),
    ("font/ttf", "ttf"),
    ("font/otf", "otf"),
    ("audio/mpeg", "mp3 mp2 mpga"),
    ("audio/wav", "wav"),
    ("audio/ogg", "ogg oga spx opus"),
    ("audio/flac", "flac"),
    ("audio/aac", "aac"),
    ("audio/m4a", "m4a"),
    ("audio/mid", "mid midi"),
    ("audio/aiff", "aif aiff aifc"),
    ("audio/webm", "weba"),
    ("video/mp4", "mp4 mp4v mpg4"),
    ("video/mpeg", "mpeg mpg mpe m1v"),
    ("video/ogg", "ogv"),
    ("video/webm", "webm"),
    ("video/quicktime", "mov qt"),
    ("video/x-msvideo", "avi"),
    ("video/x-m4v", "m4v"),
    ("video/x-matroska", "mkv"),
    ("video/x-flv", "flv"),
    ("video/x-ms-wmv", "wmv"),
    ("video/3gpp", "3gp"),
    ("video/vnd.dlna.mpeg-tts", "ts")]

/-- The type of bytes of which nothing is known. -/
def unknownMedia : String := "application/octet-stream"

/-- The media type of a file. -/
def mediaType (path : String) : String :=
  match extension? path with
  | none => unknownMedia
  | some extension =>
    let lower := extension.map Char.toLower
    match mediaTypes.find? fun entry => (entry.2.splitOn " ").contains lower with
    | some entry => entry.1
    | none => unknownMedia

end Files
end Frontispiece
